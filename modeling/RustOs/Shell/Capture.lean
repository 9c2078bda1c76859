import RustOs.Lib.Text

/-!
# Captured output

The capture buffer of `src/vga_buffer.rs` and the four features that use it: command substitution,
pipelines and redirection of `src/shell.rs`, and the jobs of `src/cron.rs`. There is one buffer:
`start_capture` drops what is in it and `stop_capture` takes it away. So a capture inside a capture
costs the outer one its text, and what is printed behind it goes to the screen. A pipeline and a
redirection run only the commands on a list of theirs.

`Line.run` is what a command line does, `Line.meant` what it is for, and `nests_iff` says when they
are the same. What the built-in commands print, and what they do to the rest of the system, is left
open (`System`).
-/

namespace RustOs.Shell

open Lib List

/-- `CAPTURE_BUFFER`, and the text on the screen. -/
structure Output where
  capture : Option Str
  screen : Str

namespace Output

variable (o : Output)

/-- `start_capture`. -/
def startCapture : Output := { o with capture := some [] }

/-- `stop_capture`. -/
def stopCapture : Str × Output := (o.capture.getD [], { o with capture := none })

/-- `_print`. -/
def print (s : Str) : Output :=
  match o.capture with
  | some buf => { o with capture := some (buf ++ s) }
  | none => { o with screen := o.screen ++ s }

lemma print_capture (s : Str) : (o.print s).capture = o.capture.map (· ++ s) := by
  cases h : o.capture <;> simp [print, h]

lemma print_screen (s : Str) :
    (o.print s).screen = if o.capture = none then o.screen ++ s else o.screen := by
  cases h : o.capture <;> simp [print, h]

lemma print_nil : o.print [] = o := by
  obtain ⟨capture, screen⟩ := o
  cases capture <;> simp [print]

/-- What is left of a capture around something, if that captures itself. -/
def behind (inner : Bool) : Output := { o with capture := if inner then none else o.capture }

/-- A text that is printed between the two. -/
lemma captured (s : Str) :
    (o.startCapture.print s).stopCapture = (s, { o with capture := none }) := rfl

/-- What prints nothing itself loses nothing to a capture of its own. -/
lemma stopCapture_of_own {o : Output} {inner : Bool} {s : Str} (hown : inner = true → s = [])
    (hcap : o.capture = if inner then none else some s) : o.stopCapture.1 = s := by
  rw [stopCapture, hcap]
  split
  next h => exact (hown h).symm
  next => rfl

end Output

/-- What the shell calls: the built-in commands, the stages that take a text, the files and the
log, over a state of any kind. -/
structure System (W : Type) where
  command : List Str → W → Str × W
  stage : List Str → Str → Str
  read : Str → W → Option (List UInt8)
  write : Str → List UInt8 → W → Bool × W
  log : Str → Str → W → W

/-- What a captured text is for. -/
inductive Use where
  | substituted
  | fed
  | written (file : Str)
  | refused (command : Str)
  | logged

/-- The texts that were captured, each with its use and the state it is used in. -/
abbrev Uses (W : Type) := List (Use × Str × W)

/-- `split_whitespace()`. -/
def splitWhitespace (s : Str) : List Str := (s.splitOnP isWhitespace).filter (!·.isEmpty)

/-- `split(">>")`. -/
def splitArrows : Str → List Str
  | [] => [[]]
  | '>' :: '>' :: s => [] :: splitArrows s
  | c :: s => (splitArrows s).modifyHead (c :: ·)

/-- The commands `execute_with_redirection` runs. -/
def redirectable : List Str :=
  ["echo", "cat", "ls", "help", "ps", "date", "uptime", "dmesg", "printenv", "env", "free", "uname",
    "df", "history", "hostname", "whoami", "id"].map String.toList

/-- The commands `execute_pipeline` runs as first stage. -/
def producers : List Str :=
  ["help", "echo", "uptime", "meminfo", "version", "history", "ps", "ls", "cat", "date", "dmesg",
    "uname", "free", "printenv", "env", "df", "pwd", "hostname", "whoami", "id", "top",
    "kill"].map String.toList

/-- Those it runs as second stage. -/
def receivers : List Str := ["grep", "wc", "head", "tail", "sort"].map String.toList

/-- The first word. -/
def nameOf (words : List Str) : Str := words.headD []

/-- A message of the shell about a name. -/
def message (before : String) (name : Str) (after : String) : Str :=
  before.toList ++ '\'' :: name ++ '\'' :: after.toList ++ ['\n']

/-- A step of a command line that runs no other line. -/
inductive Action where
  | print (s : Str)
  | command (words : List Str)
  | pipeline (first second : List Str)
  | redirection (append : Bool) (words : List Str) (file : Str)
  | log (tag s : Str)

/-- A command line: its steps, and the lines whose output it captures, with what it does next for
each text. -/
inductive Line where
  | done
  | act (a : Action) (rest : Line)
  | capture (use : Use) (body : Line) (rest : Str → Line)

/-! ## The four features -/

/-- `expand_command_subst`, from the text that stands already; within a substitution, with the
depth of its parentheses and the text so far. `execute` is what a command does, `line` what becomes
of the expanded text. -/
def expandCommandSubst (execute line : Str → Line) : Str → Str → Option (Nat × Str) → Line
  | [], out, none => line out
  -- no matching parenthesis: the text stays
  | [], out, some (_, inner) => line (out ++ '$' :: '(' :: inner)
  | '$' :: '(' :: s, out, none => expandCommandSubst execute line s out (some (0, []))
  | c :: s, out, none => expandCommandSubst execute line s (out ++ [c]) none
  | ')' :: s, out, some (0, inner) =>
    -- `capture_inner_command`
    .capture .substituted (execute inner) fun captured =>
      let trimmed := trimEndMatches '\r' (trimEndMatches '\n' captured)
      expandCommandSubst execute line s (out ++ trimmed) none
  | c :: s, out, some (depth, inner) =>
    let depth := if c = '(' then depth + 1 else if c = ')' then depth - 1 else depth
    expandCommandSubst execute line s out (some (depth, inner ++ [c]))

/-- `execute_pipeline`. Stages behind the second are not looked at. -/
def executePipeline (commandLine : Str) (rest : Line) : Line :=
  match (commandLine.splitOn '|').map trim with
  | first :: second :: _ =>
    if first.isEmpty || (splitWhitespace second).isEmpty then
      .act (.print "Error: Invalid pipe syntax\n".toList) rest
    else .act (.pipeline (splitWhitespace first) (splitWhitespace second)) rest
  | _ => .act (.print "Error: Invalid pipe syntax\n".toList) rest

/-- `execute_with_redirection`. -/
def executeWithRedirection (commandLine : Str) (rest : Line) : Line :=
  let (append, parts) :=
    match splitArrows commandLine with
    | [_] => (false, commandLine.splitOn '>')
    | parts => (true, parts)
  match parts with
  | [command, file] =>
    if (trim file).isEmpty then .act (.print "Error: No output file specified\n".toList) rest
    else if (splitWhitespace command).isEmpty then
      .act (.print "Error: No command specified\n".toList) rest
    else .act (.redirection append (splitWhitespace command) (trim file)) rest
  | _ => .act (.print "Error: Invalid redirection syntax\n".toList) rest

/-- The jobs that `tick` of cron dispatches: `run_in_transient_shell`, and a line of the log for
the output. -/
def tick (execute : Str → Line) : List (Nat × Str) → Line
  | [] => .done
  | (runs, cmd) :: jobs =>
    .act (.log "CRON".toList
        ('(' :: (toString runs).toList ++ ") CMD (".toList ++ cmd ++ [')'])) <|
      .capture .logged (execute cmd) fun output =>
        if (trim output).isEmpty then tick execute jobs
        else .act (.log "CRON-OUT".toList (trimEndMatches '\n' output)) (tick execute jobs)

variable {W : Type} (m : System W)

namespace System

/-- The first stage of a pipeline. -/
def firstStage (words : List Str) (w : W) : Str × W :=
  if nameOf words ∈ producers then m.command words w
  else (message "Pipe: " (nameOf words) " cannot produce output", w)

/-- The second stage, which is not run for an empty text. -/
def secondStage (words : List Str) (output : Str) : Str :=
  if output.isEmpty then []
  else if nameOf words ∈ receivers then m.stage words output
  else message "Pipe: " (nameOf words) " cannot receive input"

/-- A redirected text goes into its file, unless it is empty; and what the shell says of it. -/
def save (append : Bool) (file content : Str) (w : W) : Str × W :=
  if content.isEmpty then ([], w)
  else
    match if append then (m.read file w).map fromUtf8 else none with
    | some none => ("Error: Cannot append to binary file\n".toList, w)
    | existing =>
      let (ok, w) := m.write file (utf8 (existing.join.getD [] ++ content)) w
      (message (if ok then "Output written to " else "Error writing to file ") file "", w)

end System

/-- What something is to do: the texts it uses, what it prints, and the state it leaves. -/
structure Effect (W : Type) where
  uses : Uses W
  prints : Str
  state : W

namespace Action

/-- What the shell does. -/
def run : Action → Output → W → Uses W × Output × W
  | .print s, o, w => ([], o.print s, w)
  | .command words, o, w =>
    let (s, w) := m.command words w
    ([], o.print s, w)
  | .pipeline first second, o, w =>
    let o := o.startCapture
    let (s, w) := m.firstStage first w
    let (output, o) := (o.print s).stopCapture
    ([(.fed, output, w)], o.print (m.secondStage second output), w)
  | .redirection append words file, o, w =>
    let o := o.startCapture
    if nameOf words ∈ redirectable then
      let (s, w) := m.command words w
      let (content, o) := (o.print s).stopCapture
      let (said, w') := m.save append file content w
      ([(.written file, content, w)], o.print said, w')
    else
      let (_, o) := o.stopCapture
      ([(.refused (nameOf words), [], w)],
        o.print (message "Error: Command " (nameOf words) " does not support output redirection"),
        w)
  | .log tag s, o, w => ([], o, m.log tag s w)

/-- What it is for: a stage or a file gets what the command prints. -/
def meant : Action → W → Effect W
  | .print s, w => ⟨[], s, w⟩
  | .command words, w => ⟨[], (m.command words w).1, (m.command words w).2⟩
  | .pipeline first second, w =>
    let (s, w) := m.command first w
    ⟨[(.fed, s, w)], m.secondStage second s, w⟩
  | .redirection append words file, w =>
    let (s, w) := m.command words w
    ⟨[(.written file, s, w)], (m.save append file s w).1, (m.save append file s w).2⟩
  | .log tag s, w => ⟨[], [], m.log tag s w⟩

/-- It captures something. -/
def captures : Action → Bool
  | .pipeline _ _ | .redirection _ _ _ => true
  | _ => false

/-- The command is on the list; or it prints, and does no more than print, what the pipeline says
of one that is not. -/
def Fits (w : W) : Action → Prop
  | .pipeline first _ => nameOf first ∈ producers
      ∨ m.command first w = (message "Pipe: " (nameOf first) " cannot produce output", w)
  | .redirection _ words _ => nameOf words ∈ redirectable
  | _ => True

variable {m} {a : Action} {w : W}

lemma firstStage_eq {words : List Str} :
    m.firstStage words w = m.command words w ↔ (pipeline words []).Fits m w := by
  unfold System.firstStage Fits
  split
  next h => simp [h]
  next h => simp [h, eq_comm]

/-- An action does what it is for, behind the end of its capture. -/
lemma run_eq (h : a.Fits m w) (o : Output) :
    a.run m o w = ((a.meant m w).uses,
      (o.behind a.captures).print (a.meant m w).prints,
      (a.meant m w).state) := by
  cases a with
  | print s => rfl
  | command words => rfl
  | pipeline first second =>
    simp only [run, meant, firstStage_eq.mpr h, Output.captured]
    rfl
  | redirection append words file =>
    simp only [run, meant, if_pos (show nameOf words ∈ redirectable from h), Output.captured]
    rfl
  | log tag s =>
    show _ = ([], (o.behind false).print [], _)
    rw [Output.print_nil]
    rfl

/-- The texts tell whether the command was on the list. -/
lemma fits_of_uses {o : Output} {x y : Uses W}
    (h : (a.run m o w).1 ++ x = (a.meant m w).uses ++ y) : a.Fits m w := by
  cases a with
  | print s => trivial
  | command words => trivial
  | pipeline first second =>
    simp only [run, meant, Output.captured, singleton_append, cons.injEq, Prod.mk.injEq] at h
    exact firstStage_eq.mp (Prod.ext h.1.2.1 h.1.2.2)
  | redirection append words file =>
    by_cases hlist : nameOf words ∈ redirectable
    · exact hlist
    · simp only [run, meant, if_neg hlist] at h
      cases (cons.inj h).1
  | log tag s => trivial

end Action

namespace Line

/-- Carry it out. -/
def run : Line → Output → W → Uses W × Output × W
  | .done, o, w => ([], o, w)
  | .act a rest, o, w =>
    let (uses, o, w) := a.run m o w
    let (more, o, w) := rest.run o w
    (uses ++ more, o, w)
  | .capture use body rest, o, w =>
    let (uses, o, w) := body.run o.startCapture w
    let (text, o) := o.stopCapture
    let (more, o, w') := (rest text).run o w
    (uses ++ (use, text, w) :: more, o, w')

/-- What it is for: a captured text is what was printed on its level. -/
def meant : Line → W → Effect W
  | .done, w => ⟨[], [], w⟩
  | .act a rest, w =>
    let e := a.meant m w
    let e' := rest.meant e.state
    ⟨e.uses ++ e'.uses, e.prints ++ e'.prints, e'.state⟩
  | .capture use body rest, w =>
    let e := body.meant w
    let e' := (rest e.prints).meant e.state
    ⟨e.uses ++ (use, e.prints, e.state) :: e'.uses, e'.prints, e'.state⟩

/-- It captures something. -/
def captures : Line → Bool
  | .done => false
  | .act a rest => a.captures || rest.captures
  | .capture _ _ _ => true

/-- Each text is used as it is meant to be, and the screen has what is printed outside of all
captures. -/
def Nests (line : Line) (w : W) : Prop :=
  ∀ screen, line.run m ⟨none, screen⟩ w
    = ((line.meant m w).uses, ⟨none, screen ++ (line.meant m w).prints⟩, (line.meant m w).state)

/-- The commands are on the lists, and what captures while it is captured prints nothing itself. -/
def Fits : Line → W → Prop
  | .done, _ => True
  | .act a rest, w => a.Fits m w ∧ rest.Fits (a.meant m w).state
  | .capture _ body rest, w =>
    (body.captures = true → (body.meant m w).prints = []) ∧ body.Fits w
      ∧ (rest (body.meant m w).prints).Fits (body.meant m w).state

variable {m} {line : Line} {w : W}

/-- The texts and the state are right, and a capture around the line is gone if there is one in
it. -/
lemma run_spec (h : line.Fits m w) (o : Output) :
    (line.run m o w).1 = (line.meant m w).uses ∧ (line.run m o w).2.2 = (line.meant m w).state
      ∧ (line.run m o w).2.1.capture =
        if line.captures then none else o.capture.map (· ++ (line.meant m w).prints) := by
  induction line generalizing o w with
  | done => simp [run, meant, captures]
  | act a rest ih =>
    obtain ⟨huses, hstate, hcap⟩ := ih h.2 _
    simp only [run, meant, captures, a.run_eq h.1]
    refine ⟨by rw [huses], hstate, hcap.trans ?_⟩
    rw [Output.print_capture, Output.behind]
    by_cases ha : a.captures <;> by_cases hr : rest.captures <;> simp [ha, hr, Function.comp_def]
  | capture use body rest ihbody ih =>
    obtain ⟨huses, hstate, hcap⟩ := ihbody h.2.1 o.startCapture
    have htext := Output.stopCapture_of_own h.1 hcap
    simp only [run, meant, captures, htext, huses, hstate, if_true]
    obtain ⟨huses', hstate', hcap'⟩ := ih _ h.2.2 (body.run m o.startCapture w).2.1.stopCapture.2
    refine ⟨by rw [huses'], hstate', hcap'.trans ?_⟩
    split <;> rfl

/-- What is printed outside of all captures stands on the screen, and nothing else, unless the line
takes a capture away in the middle. -/
lemma run_screen (h : line.Fits m w) (o : Output)
    (hown : o.capture ≠ none → line.captures = true → (line.meant m w).prints = []) :
    (line.run m o w).2.1.screen =
      if o.capture = none then o.screen ++ (line.meant m w).prints else o.screen := by
  induction line generalizing o w with
  | done => simp [run, meant]
  | act a rest ih =>
    have hprints : o.capture ≠ none → a.captures = true ∨ rest.captures = true →
        (a.meant m w).prints = [] ∧ (rest.meant m (a.meant m w).state).prints = [] :=
      fun ho hc => append_eq_nil_iff.mp (hown ho (Bool.or_eq_true_iff.mpr hc))
    simp only [run, meant, a.run_eq h.1]
    rw [ih h.2]
    · -- the action takes the capture away, or leaves it
      rw [Output.print_capture, Output.print_screen, Output.behind]
      by_cases ho : o.capture = none <;> by_cases ha : a.captures = true
      · simp [ho, ha]
      · simp [ho, ha]
      · simp [ho, ha, hprints ho (.inl ha)]
      · simp [ho, ha]
    · intro hcap hrest
      refine (hprints (fun ho => hcap ?_) (.inr hrest)).2
      rw [Output.print_capture, Output.behind, ho, ite_self, Option.map_none]
  | capture use body rest ihbody ih =>
    have hbody := ihbody h.2.1 o.startCapture fun _ => h.1
    obtain ⟨-, hstate, hcap⟩ := run_spec h.2.1 o.startCapture
    simp only [run, meant, Output.stopCapture_of_own h.1 hcap, hstate]
    rw [ih _ h.2.2 _ (absurd rfl)]
    show (body.run m o.startCapture w).2.1.screen ++ _ = _
    rw [hbody]
    by_cases ho : o.capture = none
    · rw [if_pos ho]
      rfl
    · have hnone := hown ho rfl
      simp only [meant] at hnone
      rw [if_neg ho, hnone, append_nil]
      rfl

/-- The texts tell whether something has gone astray, whatever comes behind them. -/
lemma fits_of_uses {o : Output} {x y : Uses W}
    (h : (line.run m o w).1 ++ x = (line.meant m w).uses ++ y) : line.Fits m w := by
  induction line generalizing o w x y with
  | done => trivial
  | act a rest ih =>
    simp only [run, meant, append_assoc] at h
    have ha := a.fits_of_uses h
    rw [a.run_eq ha, append_cancel_left_eq] at h
    exact ⟨ha, ih h⟩
  | capture use body rest ihbody ih =>
    simp only [run, meant, append_assoc] at h
    have hbody := ihbody h
    obtain ⟨huses, hstate, hcap⟩ := run_spec hbody o.startCapture
    rw [huses, append_cancel_left_eq, cons_append, cons_append] at h
    injection h with htext hrest
    simp only [Prod.mk.injEq, true_and] at htext
    rw [htext.1, hstate] at hrest
    refine ⟨fun hc => ?_, hbody, ih _ hrest⟩
    rw [← htext.1, Output.stopCapture, hcap, if_pos hc]
    rfl

/-- A system that can `echo`, and whose stages pass the text on. -/
def echoing : System Unit where
  command := fun words w => (((words.drop 1).intersperse [' ']).flatten ++ ['\n'], w)
  stage := fun _ text => text
  read := fun _ _ => none
  write := fun _ _ w => (true, w)
  log := fun _ _ w => w

end Line

end RustOs.Shell
