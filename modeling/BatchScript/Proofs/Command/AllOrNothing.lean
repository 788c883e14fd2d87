import BatchScript.Command.Line
import BatchScript.Proofs.Directory
import BatchScript.Proofs.Page.Layout

/-!
# A run does all or nothing

A run can fail because of its form, its source, its script or the place for its output, and it finds
this out before it prints or saves anything. What it shows is made from the text that the source
stood for before the run, so the output may replace the source. Once a file is open, only an output
with surrogates fails to be written to it.

The rules below say what a request means, how a script shows in a form, what can go wrong and what a
finished run leaves behind, with no mention of the order in which the program finds it out.

> `run_spec`: how any run goes by these rules;
> `all_or_nothing`: what is left behind by a run, and by a command whose arguments are in order.
-/

namespace BatchScript

namespace Command

/-! ## Rules -/

/-- The script that a request means: the source itself, or the text of the script file it names. -/
inductive Request.Means (r : Request) (d : Directory) : Text → Prop
  | given : r.isScript = true → Means r d r.source
  | loaded {bytes : List UInt8} {text : Text} : r.isScript = false →
      isScriptPath r.source = true → d.load r.source = .ok bytes →
      Utf8.decode bytes = .ok text → Means r d (Text.unifyLineBreaks text)

/-- How a script shows in a form. A script in normal form comes from the renderer, which may refuse
what it is given. -/
inductive Form.Shows : Form → Text → Text → Prop
  | tokens (script : Text) :
      Shows .tokens script (Text.joinLines ((Token.ofText script).map PlacedToken.listing))
  | statements {script : Text} {ss : List Statement} : Script.ofText script = .ok ss →
      Shows .statements script (Text.joinLines (ss.map Statement.listing))
  | json {script : Text} {ss : List Statement} : Script.ofText script = .ok ss →
      Shows .json script (Json.list (ss.map Statement.record)).write
  | script {script output : Text} {ss : List Statement} {p : Page} :
      Script.ofText script = .ok ss → Page.blank.render (ss.map .statement) = (.ok output, p) →
      Shows .script script output

/-- What is wrong with a request over a directory. -/
inductive Fails (r : Request) (d : Directory) : Failure → Prop
  | unknownForm : (∀ form : Form, r.form ≠ form.name) → Fails r d (.unknownForm r.form)
  | notAScriptFile {form : Form} : r.form = form.name → r.isScript = false →
      isScriptPath r.source = false → Fails r d .notAScriptFile
  | unopened {form : Form} {fault : Directory.Fault} : r.form = form.name → r.isScript = false →
      isScriptPath r.source = true → d.load r.source = .error fault → Fails r d (.unopened fault)
  | undecodable {form : Form} {bytes : List UInt8} {fault : Utf8.Fault} : r.form = form.name →
      r.isScript = false → isScriptPath r.source = true → d.load r.source = .ok bytes →
      Utf8.decode bytes = .error fault → Fails r d (.undecodable fault)
  | malformed {form : Form} {script : Text} {e : SyntaxError} : r.form = form.name →
      r.Means d script → form ≠ .tokens → Script.ofText script = .error e →
      Fails r d (.malformed e)
  | unsaved {form : Form} {script output path : Text} {fault : Directory.Fault} :
      r.form = form.name → r.Means d script → form.Shows script output → r.out = some path →
      path ≠ [] → d.save path [] = .error fault → Fails r d (.unopened fault)
  | unencodable {form : Form} {script output path : Text} {d' : Directory}
      {surrogates : Utf8.Surrogates} : r.form = form.name → r.Means d script →
      form.Shows script output → r.out = some path → path ≠ [] → d.save path [] = .ok d' →
      Utf8.encode output = .error surrogates → Fails r d (.unencodable surrogates)

/-- A file has been emptied, and all else is as before. -/
def Empties (out : Option Text) (d d' : Directory) : Prop :=
  ∃ path place, out = some path ∧ d.resolve path = .ok place ∧
    ∀ p, d'.find? p = if p = place then some (.file []) else d.find? p

/-- The directory and the printed text that a run with some output leaves behind. -/
inductive Delivers (out : Option Text) (d : Directory) (output : Text) : Directory → Text → Prop
  | printed : (out = none ∨ out = some []) → Delivers out d output d (output ++ [char '\n'])
  | saved {path : Text} {place : Directory.Path} {bytes : List UInt8} {d' : Directory} :
      out = some path → path ≠ [] → d.resolve path = .ok place → Utf8.encode output = .ok bytes →
      (∀ p, d'.find? p = if p = place then some (.file bytes) else d.find? p) →
      d'.load path = .ok bytes → Delivers out d output d' []

/-- What a run that returns some output has done over a directory: the output shows the script that
the request means, and it has been delivered. -/
structure Finishes (r : Request) (d : Directory) (output : Text) (d' : Directory)
    (printed : Text) : Prop where
  shows : ∃ (form : Form) (script : Text), r.form = form.name ∧ r.Means d script ∧
    form.Shows script output
  delivers : Delivers r.out d output d' printed

/-- How a run goes, as its outcome and the directory and the printed text behind it. -/
inductive Runs (r : Request) (d : Directory) : Except Failure Text → Directory → Text → Prop
  | fails {f : Failure} : Fails r d f → f.isOfWriting = false → Runs r d (.error f) d []
  | breaksOff {f : Failure} {d' : Directory} : Fails r d f → f.isOfWriting = true →
      Empties r.out d d' → Runs r d (.error f) d' []
  | finishes {output printed : Text} {d' : Directory} : Finishes r d output d' printed →
      Runs r d (.ok output) d' printed

/-! ## Requests -/

/-- A form is found by its own name only. -/
theorem Form.ofName?_eq_some_iff {n : Text} {form : Form} :
    ofName? n = some form ↔ n = form.name := by
  constructor
  · intro h
    rw [ofName?] at h
    have hname := List.find?_some h
    exact (beq_iff_eq.1 hname).symm
  · rintro rfl
    cases form <;> decide

theorem Form.ofName?_eq_none_iff {n : Text} :
    ofName? n = none ↔ ∀ form : Form, n ≠ form.name := by
  rw [Option.eq_none_iff_forall_ne_some]
  exact forall_congr' fun form => not_congr ofName?_eq_some_iff

/-- A request is understood when it has a known form and means a script. -/
theorem Request.script_eq_ok_iff {r : Request} {d : Directory} {form : Form} {script : Text} :
    r.script d = .ok (form, script) ↔ r.form = form.name ∧ r.Means d script := by
  constructor
  · intro h
    unfold Request.script at h
    split at h
    · cases h
    · next form' hform =>
      have hname := Form.ofName?_eq_some_iff.1 hform
      split at h
      · next hgiven =>
        cases h
        exact ⟨hname, .given hgiven⟩
      · next hgiven =>
        rw [Bool.not_eq_true] at hgiven
        unfold loadScript at h
        split at h
        · next hpath =>
          split at h
          · cases h
          · next bytes hload =>
            split at h
            · cases h
            · next text hdecode =>
              cases h
              exact ⟨hname, .loaded hgiven hpath hload hdecode⟩
        · cases h
  · rintro ⟨hform, hmeans⟩
    rw [Request.script, Form.ofName?_eq_some_iff.2 hform]
    cases hmeans with
    | given hgiven => simp [hgiven]
    | loaded hgiven hpath hload hdecode =>
      simp [hgiven, loadScript, hpath, hload, hdecode, Except.map]

/-- A request that is not understood fails by one of the rules, and before anything is written. -/
theorem Request.fails_of_script {r : Request} {d : Directory} {f : Failure}
    (h : r.script d = .error f) : Fails r d f ∧ f.isOfWriting = false := by
  -- the checks in the order of the program, with the rule that each of them breaks
  unfold Request.script at h
  split at h
  · next hform =>
    cases h
    exact ⟨.unknownForm (Form.ofName?_eq_none_iff.1 hform), rfl⟩
  · next form' hform =>
    have hname := Form.ofName?_eq_some_iff.1 hform
    split at h
    · cases h
    · next hgiven =>
      rw [Bool.not_eq_true] at hgiven
      unfold loadScript at h
      split at h
      · next hpath =>
        split at h
        · next fault hload =>
          cases h
          exact ⟨.unopened hname hgiven hpath hload, rfl⟩
        · next bytes hload =>
          split at h
          · next fault hdecode =>
            cases h
            exact ⟨.undecodable hname hgiven hpath hload hdecode, rfl⟩
          · cases h
      · next hpath =>
        rw [Bool.not_eq_true] at hpath
        cases h
        exact ⟨.notAScriptFile hname hgiven hpath, rfl⟩

/-! ## Forms -/

/-- The tokens of every script can be shown, one to a line. -/
theorem showScript_tokens (script : Text) :
    (showScript .tokens script).1 =
      .ok (Text.joinLines ((Token.ofText script).map PlacedToken.listing)) := by
  rw [showScript, if_pos rfl]

/-- Any other form shows the statements of a script, or the error in it. -/
theorem showScript_statements {form : Form} (hform : form ≠ .tokens) (script : Text) :
    (showScript form script).1 = (Script.ofText script).map (showStatements · form) := by
  rw [showScript, if_neg hform, Script.ofText]
  cases h : (Script.read (Token.ofText script)).result <;> simp [h, Except.map]

/-- A script is shown by the rules. The renderer refuses nothing that has been read. -/
theorem showScript_eq_ok_iff {form : Form} {script output : Text} :
    (showScript form script).1 = .ok output ↔ form.Shows script output := by
  constructor
  · intro h
    -- tokens are listed also where the script cannot be read
    by_cases hform : form = .tokens
    · subst hform
      rw [showScript_tokens] at h
      cases h
      exact .tokens script
    · rw [showScript_statements hform] at h
      cases hread : Script.ofText script with
      | error e =>
        rw [hread] at h
        cases h
      | ok ss =>
        rw [hread] at h
        cases h
        cases form with
        | tokens => exact absurd rfl hform
        | statements => exact .statements hread
        | json => exact .json hread
        | script => exact .script hread (Script.render_statements ss)
  · intro h
    cases h with
    | tokens => exact showScript_tokens script
    | statements hread | json hread =>
      rw [showScript_statements (by decide), hread]
      rfl
    | script hread hrender =>
      rw [Script.render_statements] at hrender
      cases hrender
      rw [showScript_statements (by decide), hread]
      rfl

/-- A script that is not shown has an error, and the form needs its statements. -/
theorem showScript_eq_error_iff {form : Form} {script : Text} {e : SyntaxError} :
    (showScript form script).1 = .error e ↔ form ≠ .tokens ∧ Script.ofText script = .error e := by
  by_cases hform : form = .tokens
  · subst hform
    simp [showScript_tokens]
  · rw [showScript_statements hform]
    cases Script.ofText script <;> simp [Except.map, hform]

/-! ## Runs -/

/-- Output is delivered, or there is no place for it. -/
theorem runs_of_deliver {r : Request} {d : Directory} {form : Form} {script output : Text}
    (hform : r.form = form.name) (hscript : r.Means d script) (hshows : form.Shows script output)
    (log : List Log.Entry) :
    Runs r d (deliver r d log output).outcome (deliver r d log output).directory
      (deliver r d log output).printed := by
  have hrenders : ∃ (form : Form) (script : Text), r.form = form.name ∧ r.Means d script ∧
      form.Shows script output := ⟨form, script, hform, hscript, hshows⟩
  unfold deliver
  split
  · next hout => exact .finishes ⟨hrenders, .printed (Or.inl hout)⟩
  · next hout => exact .finishes ⟨hrenders, .printed (Or.inr hout)⟩
  · next path hne hout =>
    cases hencode : Utf8.encode output with
    | error surrogates =>
      -- the file is opened first, which empties it, and then nothing can be written
      dsimp only [Except.toOption, Option.getD]
      split
      · next fault hsave => exact .fails (.unsaved hform hscript hshows hout hne hsave) rfl
      · next d' hsave =>
        obtain ⟨place, hresolve, hfind, -⟩ := Directory.save_eq_ok hsave
        exact .breaksOff (.unencodable hform hscript hshows hout hne hsave hencode) rfl
          ⟨path, place, hout, hresolve, hfind⟩
    | ok bytes =>
      dsimp only [Except.toOption, Option.getD]
      split
      · next fault hsave =>
        exact .fails (.unsaved hform hscript hshows hout hne (Directory.save_eq_error hsave [])) rfl
      · next d' hsave =>
        obtain ⟨place, hresolve, hfind, hload⟩ := Directory.save_eq_ok hsave
        exact .finishes ⟨hrenders, .saved hout hne hresolve hencode hfind hload⟩

/-- A run goes by the rules. -/
theorem run_spec (r : Request) (d : Directory) :
    Runs r d (run r d).outcome (run r d).directory (run r d).printed := by
  unfold run
  split
  · next f hscript =>
    obtain ⟨hfails, hbefore⟩ := Request.fails_of_script hscript
    exact .fails hfails hbefore
  · next form script hscript =>
    obtain ⟨hform, hmeans⟩ := Request.script_eq_ok_iff.1 hscript
    split
    · next e log hshow =>
      obtain ⟨hstatements, hread⟩ := showScript_eq_error_iff.1 (congrArg Prod.fst hshow)
      exact .fails (.malformed hform hmeans hstatements hread) rfl
    · next output log hshow =>
      exact runs_of_deliver hform hmeans (showScript_eq_ok_iff.1 (congrArg Prod.fst hshow)) log

/-- A request whose script does not show fails. -/
theorem run_eq_failed {r : Request} {d : Directory} {form : Form} {script : Text} {e : SyntaxError}
    (hform : r.form = form.name) (hmeans : r.Means d script)
    (hshow : (showScript form script).1 = .error e) :
    ∃ log, run r d = failed d log (.malformed e) := by
  rw [run, Request.script_eq_ok_iff.2 ⟨hform, hmeans⟩]
  rcases hshown : showScript form script with ⟨result, log⟩
  obtain rfl : result = .error e := by rw [← hshow, hshown]
  exact ⟨log, by simp only [hshown]⟩

/-- A request whose script shows delivers it. -/
theorem run_eq_deliver {r : Request} {d : Directory} {form : Form} {script output : Text}
    (hform : r.form = form.name) (hmeans : r.Means d script) (hshows : form.Shows script output) :
    ∃ log, run r d = deliver r d log output := by
  have hshow := showScript_eq_ok_iff.2 hshows
  rw [run, Request.script_eq_ok_iff.2 ⟨hform, hmeans⟩]
  rcases hshown : showScript form script with ⟨result, log⟩
  obtain rfl : result = .ok output := by rw [← hshow, hshown]
  exact ⟨log, by simp only [hshown]⟩

/-- A run that fails has a reason and has printed nothing. It has changed nothing either, unless a
file had been opened and could not be written. -/
theorem run_of_error {r : Request} {d : Directory} {f : Failure}
    (h : (run r d).outcome = .error f) :
    Fails r d f ∧ (run r d).printed = [] ∧ (f.isOfWriting = false → (run r d).directory = d) ∧
      (f.isOfWriting = true → Empties r.out d (run r d).directory) := by
  have hruns := run_spec r d
  rw [h] at hruns
  generalize (run r d).directory = d', (run r d).printed = printed at hruns ⊢
  cases hruns with
  | fails hf hbefore => exact ⟨hf, rfl, fun _ => rfl, fun hwriting => by simp [hbefore] at hwriting⟩
  | breaksOff hf hwriting hempties =>
    exact ⟨hf, rfl, fun hbefore => by simp [hwriting] at hbefore, fun _ => hempties⟩

/-- A run that returns some output has finished. -/
theorem run_of_ok {r : Request} {d : Directory} {output : Text}
    (h : (run r d).outcome = .ok output) :
    Finishes r d output (run r d).directory (run r d).printed := by
  have hruns := run_spec r d
  rw [h] at hruns
  cases hruns with
  | finishes hdone => exact hdone

/-- Whatever is wrong with a request makes its run fail. -/
theorem run_of_fails {r : Request} {d : Directory} {f : Failure} (h : Fails r d f) :
    (run r d).outcome = .error f := by
  cases h with
  | unknownForm hform =>
    rw [run, Request.script, Form.ofName?_eq_none_iff.2 hform]
    rfl
  | notAScriptFile hform hgiven hpath =>
    rw [run, Request.script, Form.ofName?_eq_some_iff.2 hform]
    simp [hgiven, loadScript, hpath, Except.map, failed]
  | unopened hform hgiven hpath hload =>
    rw [run, Request.script, Form.ofName?_eq_some_iff.2 hform]
    simp [hgiven, loadScript, hpath, hload, Except.map, failed]
  | undecodable hform hgiven hpath hload hdecode =>
    rw [run, Request.script, Form.ofName?_eq_some_iff.2 hform]
    simp [hgiven, loadScript, hpath, hload, hdecode, Except.map, failed]
  | malformed hform hmeans hstatements hread =>
    -- the later causes are met when the source has been understood
    obtain ⟨log, hrun⟩ := run_eq_failed hform hmeans
      (showScript_eq_error_iff.2 ⟨hstatements, hread⟩)
    rw [hrun]
    rfl
  | unsaved hform hmeans hshows hout hne hsave =>
    obtain ⟨log, hrun⟩ := run_eq_deliver hform hmeans hshows
    obtain ⟨c, cs, rfl⟩ := List.exists_cons_of_ne_nil hne
    simp [hrun, deliver, hout, Directory.save_eq_error hsave, failed]
  | unencodable hform hmeans hshows hout hne hsave hencode =>
    obtain ⟨log, hrun⟩ := run_eq_deliver hform hmeans hshows
    obtain ⟨c, cs, rfl⟩ := List.exists_cons_of_ne_nil hne
    simp [hrun, deliver, hout, hencode, Except.toOption, hsave, failed]

/-! ## Commands -/

/-- A command whose arguments are in order does what its run does. -/
theorem execute_of_options {argv : List Text} {o : Options} (h : Options.ofArguments argv = .ok o)
    (d : Directory) : execute argv d = (run o.request d).outcomeOf o.verbose := by
  rw [execute, h]

theorem lines_append_singleton (notes : List Text) (t : Text) :
    lines (notes ++ [t]) = lines notes ++ t ++ [char '\n'] := by
  simp [lines]

/-- **A run does all or nothing.** It fails exactly when something is wrong with its request, and
then nothing is printed and every file is as before, except that a file whose output cannot be
written is left empty. A run that returns some output has shown the script that the source stood for
before the run, and the output is the one file that has changed, or the printed text. A command
whose arguments are in order ends with 0 after such a run, or it ends with 1, its output is empty,
every file is as before with the same exception, and the error stream ends with the message. -/
theorem all_or_nothing :
    (∀ (r : Request) (d : Directory) (f : Failure), ((run r d).outcome = .error f ↔ Fails r d f) ∧
      ((run r d).outcome = .error f → (run r d).printed = [] ∧
        (f.isOfWriting = false → (run r d).directory = d) ∧
        (f.isOfWriting = true → Empties r.out d (run r d).directory))) ∧
    (∀ (r : Request) (d : Directory) (output : Text), (run r d).outcome = .ok output →
      Finishes r d output (run r d).directory (run r d).printed) ∧
    ∀ (argv : List Text) (o : Options) (d : Directory), Options.ofArguments argv = .ok o →
      (∃ output, Finishes o.request d output (execute argv d).directory (execute argv d).stdout ∧
        (execute argv d).exit = 0 ∧ (o.verbose = false → (execute argv d).stderr = [])) ∨
      ∃ f notes, Fails o.request d f ∧ (f.isOfWriting = false → (execute argv d).directory = d) ∧
        (f.isOfWriting = true → Empties o.request.out d (execute argv d).directory) ∧
        (execute argv d).stdout = [] ∧ (execute argv d).exit = 1 ∧
        (execute argv d).stderr = notes ++ ("error: ".text ++ f.message) ++ [char '\n'] ∧
        (o.verbose = false → notes = []) := by
  refine ⟨fun r d f => ⟨⟨fun h => (run_of_error h).1, run_of_fails⟩, fun h => (run_of_error h).2⟩,
    fun r d output => run_of_ok, fun argv o d h => ?_⟩
  rw [execute_of_options h, Report.outcomeOf]
  cases hrun : (run o.request d).outcome with
  | ok output =>
    refine Or.inl ⟨output, run_of_ok hrun, rfl, fun hquiet => ?_⟩
    simp [hquiet, lines]
  | error f =>
    obtain ⟨hfails, hprinted, hbefore, hwriting⟩ := run_of_error hrun
    refine Or.inr ⟨f, _, hfails, hbefore, hwriting, hprinted, rfl, lines_append_singleton _ _,
      fun hquiet => ?_⟩
    simp [hquiet, lines]

/-- A script file that is put in normal form in its own place, and an assignment that cannot be
read, as a request and as a command. A surrogate in the output leaves the file empty. -/
theorem all_or_nothing_in_place :
    (∃ before after,
      Utf8.encode "ECHO  é".text = .ok before ∧ Utf8.encode "echo é".text = .ok after ∧
      Finishes ⟨"a.bat".text, false, "emit".text, some "./a.bat".text⟩
        ⟨[(["a.bat".text], .file before)]⟩ "echo é".text ⟨[(["a.bat".text], .file after)]⟩ []) ∧
    (run ⟨"set x".text, true, "json".text, some "a.bat".text⟩
      ⟨[(["a.bat".text], .folder)]⟩).directory = ⟨[(["a.bat".text], .folder)]⟩ ∧
    (execute ["-s".text, "set x".text] ⟨[]⟩).stdout = [] ∧
    Empties (some "a.bat".text) ⟨[(["a.bat".text], .file [0x61])]⟩
      ⟨[(["a.bat".text], .file [])]⟩ := by
  obtain ⟨before, hbefore⟩ : ∃ before, Utf8.encode "ECHO  é".text = .ok before := ⟨_, rfl⟩
  obtain ⟨after, hafter⟩ : ∃ after, Utf8.encode "echo é".text = .ok after := ⟨_, rfl⟩
  obtain ⟨houtcome, hdirectory, hprinted⟩ :
      (run ⟨"a.bat".text, false, "emit".text, some "./a.bat".text⟩
        ⟨[(["a.bat".text], .file before)]⟩).outcome = .ok "echo é".text ∧
      (run ⟨"a.bat".text, false, "emit".text, some "./a.bat".text⟩
        ⟨[(["a.bat".text], .file before)]⟩).directory = ⟨[(["a.bat".text], .file after)]⟩ ∧
      (run ⟨"a.bat".text, false, "emit".text, some "./a.bat".text⟩
        ⟨[(["a.bat".text], .file before)]⟩).printed = [] := by
    cases hbefore
    cases hafter
    decide +kernel
  have hfailed : (run ⟨"set x".text, true, "json".text, some "a.bat".text⟩
      ⟨[(["a.bat".text], .folder)]⟩).outcome =
      .error (.malformed (.invalidAssignment (some 1) (some 1))) := by decide +kernel
  have hoptions : Options.ofArguments ["-s".text, "set x".text] =
      .ok ⟨some "set x".text, true, none, none, false, []⟩ := by decide +kernel
  have hexit : (execute ["-s".text, "set x".text] ⟨[]⟩).exit = 1 := by decide +kernel
  obtain ⟨hbreaks, hemptied⟩ :
      (run ⟨"echo ".text ++ [surrogate 0], true, "emit".text, some "a.bat".text⟩
        ⟨[(["a.bat".text], .file [0x61])]⟩).outcome = .error (.unencodable ⟨5, 0, 1⟩) ∧
      (run ⟨"echo ".text ++ [surrogate 0], true, "emit".text, some "a.bat".text⟩
        ⟨[(["a.bat".text], .file [0x61])]⟩).directory = ⟨[(["a.bat".text], .file [])]⟩ := by
    decide +kernel
  refine ⟨⟨before, after, hbefore, hafter, ?_⟩,
    ((all_or_nothing.1 _ _ _).2 hfailed).2.1 rfl, ?_, ?_⟩
  · have hdone := all_or_nothing.2.1 _ _ _ houtcome
    rwa [hdirectory, hprinted] at hdone
  · rcases all_or_nothing.2.2 _ _ ⟨[]⟩ hoptions with
      ⟨-, -, hzero, -⟩ | ⟨-, -, -, -, -, hstdout, -⟩
    · rw [hexit] at hzero
      cases hzero
    · exact hstdout
  · rw [← hemptied]
    exact ((all_or_nothing.1 _ _ _).2 hbreaks).2.2 rfl

end Command

end BatchScript
