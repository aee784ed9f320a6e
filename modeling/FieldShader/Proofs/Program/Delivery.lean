import FieldShader.Program.Report
import FieldShader.Proofs.Program.Directory
import FieldShader.Proofs.Template.Endings
import FieldShader.Proofs.Text.Utf8

/-!
# What a run delivers

A run of `compile` delivers the compiled template or nothing (`Program.compile_delivers`). It needs
a template, a scene, and the node that is built of the scene. `Program.Granted` says that all three
can be had, `Program.Refused` which of them is the first that cannot, and `Program.sources` decides
between the two (`Program.sources_eq_ok_iff`, `Program.sources_eq_error_iff`). A template can be had
only if its bytes are those of a text, which is where the reading of UTF-8 comes in.

What is delivered depends on these three alone: neither failed directives nor the switches change
it. The failures are told on standard error, each on a line of its own. That takes a proof, since a
message quotes the template and the text on standard error is cut into lines
(`Splicer.ofText_message`).
-/

namespace FieldShader

/-! ## Failures on standard error -/

/-- A text on one line that does not end with a carriage return is shown as it is. -/
theorem ErrorLine.ofText_of_notMem {s : List Char} (level : Option LogLevel) (h : '\n' ∉ s)
    (hlast : s.getLast? ≠ some '\r') : ofText level s = [⟨level, s⟩] := by
  rw [ofText, splitLines_of_not_mem h]
  simp only [dropReturn, if_neg hlast, List.map_nil]

/-- A text ends as its second part does. -/
theorem getLast?_toList_append {s t : String} {c : Char} (h : t.toList.getLast? = some c) :
    (s ++ t).toList.getLast? = some c := by
  rw [String.toList_append, List.getLast?_append, h, Option.some_or]

/-- The last character of a message is a quotation mark or a digit. -/
theorem CompileError.exists_getLast?_message (e : CompileError) :
    ∃ c, e.message.toList.getLast? = some c ∧ c ≠ '\r' := by
  have hquote : "'".toList.getLast? = some '\x27' := by decide
  cases e with
  | unsupportedProperty p => exact ⟨'\x27', getLast?_toList_append hquote, by decide⟩
  | unknownProperty tag => exact ⟨'\x27', getLast?_toList_append hquote, by decide⟩
  | tooFewOperands kind count =>
    obtain ⟨digits, c, hdigits⟩ : ∃ digits c, Nat.toDigits 10 count = digits ++ [c] :=
      ⟨_, _, (List.dropLast_concat_getLast Nat.toDigits_ne_nil).symm⟩
    have hdigit : c.isDigit := Nat.isDigit_of_mem_toDigits (by decide) (by decide)
      (hdigits ▸ List.mem_append_right digits (List.mem_singleton_self c))
    refine ⟨c, getLast?_toList_append ?_, fun hc => absurd (hc ▸ hdigit) (by decide)⟩
    have hcount : (toString count).toList = Nat.toDigits 10 count := by simp
    rw [hcount, hdigits, List.getLast?_concat]

namespace Splicer

variable {s : Splicer}

/-- A failure quotes the word of the directive in its line. -/
theorem tag_of_failure? {line : List Char} {number : Nat} {f : DirectiveFailure}
    (h : (s.spliceLine line).failure? number = some f) :
    '\n' ∉ f.tag.toList ∧ ∀ tag, f.error = .unknownProperty tag → tag = f.tag := by
  rcases hcut : cutReturn line with ⟨body, ending⟩
  cases hd : Directive.ofLine? body with
  | none =>
    rw [spliceLine_of_none hcut hd] at h
    cases h
  | some d =>
    have hword : '\n' ∉ (String.ofList d.tag).toList := by
      rw [String.toList_ofList]
      exact Directive.newline_notMem_tag hd
    rw [spliceLine_of_some hcut hd] at h
    cases htag : Property.ofTag? (String.ofList d.tag) with
    | none =>
      rw [substitute_of_unknown ending htag] at h
      cases h
      exact ⟨hword, fun tag he => (CompileError.unknownProperty.inj he).symm⟩
    | some p =>
      cases hfail : (s.root.emit .world p).failure with
      | none =>
        rw [substitute_of_ok ending htag hfail] at h
        cases h
      | some e =>
        rw [substitute_of_error ending htag hfail] at h
        cases h
        refine ⟨hword, fun tag he => ?_⟩
        rw [show e = .unknownProperty tag from he] at hfail
        exact absurd hfail (Node.failure_emit_ne_unknown tag)

/-- Every failure is the failure of a line. -/
theorem exists_of_mem_failuresFrom {number : Nat} {xs : List Spliced} {f : DirectiveFailure}
    (h : f ∈ failuresFrom number xs) : ∃ x ∈ xs, ∃ number', x.failure? number' = some f := by
  induction xs generalizing number with
  | nil => cases h
  | cons x rest ih =>
    rw [failuresFrom, List.mem_append, Option.mem_toList] at h
    rcases h with h | h
    · exact ⟨x, List.mem_cons_self, number, h⟩
    · obtain ⟨y, hy, hfailure⟩ := ih h
      exact ⟨y, List.mem_cons_of_mem _ hy, hfailure⟩

/-- A failure is told on one line, and nothing of it is lost there. -/
theorem ofText_message {t : String} {f : DirectiveFailure} (h : f ∈ (s.compile t).failures) :
    ErrorLine.ofText none f.message.toList = [⟨none, f.message.toList⟩] := by
  obtain ⟨x, hx, number, hfailure⟩ := exists_of_mem_failuresFrom h
  obtain ⟨line, -, rfl⟩ := List.mem_map.1 hx
  obtain ⟨htag, hquoted⟩ := tag_of_failure? hfailure
  have hmessage : '\n' ∉ f.error.message.toList :=
    CompileError.newline_notMem_message fun tag he => hquoted tag he ▸ htag
  have hnumber := newline_notMem_toDigits f.line
  obtain ⟨c, hlast, hc⟩ := f.error.exists_getLast?_message
  refine ErrorLine.ofText_of_notMem none ?_ ?_
  · simp [DirectiveFailure.message, htag, hmessage, hnumber]
  · rw [DirectiveFailure.message, getLast?_toList_append hlast]
    exact fun h => hc (Option.some_inj.1 h)

end Splicer

/-! ## Sources -/

section

variable {ε α β : Type} {x : Except ε α} {f : α → Except ε β}

/-- Two computations in a row succeed if both do. -/
theorem bind_eq_ok_iff {b : β} : x >>= f = .ok b ↔ ∃ a, x = .ok a ∧ f a = .ok b := by
  cases x <;> simp [bind, Except.bind]

/-- They fail with the first error. -/
theorem bind_eq_error_iff {e : ε} :
    x >>= f = .error e ↔ x = .error e ∨ ∃ a, x = .ok a ∧ f a = .error e := by
  cases x <;> simp [bind, Except.bind]

end

/-- The text of a file is its bytes read as UTF-8. -/
theorem World.readText_eq_ok_iff {w : World} {path text : String} :
    w.readText path = .ok text ↔ w.read path = .ok text.toUTF8.data.toList := by
  rw [readText]
  cases w.read path with
  | error f => simp [bind, Except.bind]
  | ok bytes =>
    rw [Except.ok.injEq, ← Symbol.text?_eq_some_iff]
    cases h : Symbol.text? bytes <;>
      simp [bind, Except.bind, h, pure, Except.pure, throw, throwThe, MonadExceptOf.throw]

/-- A file has no text if it cannot be read or its bytes are those of no text. -/
theorem World.readText_eq_error_iff {w : World} {path : String} {f : FileFault} :
    w.readText path = .error f ↔ w.read path = .error f ∨
      f = .notText ∧ ∃ bytes, w.read path = .ok bytes ∧
        ∀ text : String, bytes ≠ text.toUTF8.data.toList := by
  rw [readText]
  cases w.read path with
  | error f' => simp [bind, Except.bind]
  | ok bytes =>
    simp only [← Symbol.text?_eq_some_iff, ne_eq]
    cases h : Symbol.text? bytes <;>
      simp [bind, Except.bind, h, pure, Except.pure, throw, throwThe, MonadExceptOf.throw, eq_comm]

/-- The directory after a run, with the file that the run writes. -/
def Outcome.after (r : Outcome) (d : Directory) : Directory :=
  match r.written with
  | none => d
  | some (path, text) => d.write path text

namespace Program

variable {w : World} {o : Options} {text message : String} {file : SceneFile} {n : Node}

/-- The template of a run: the text of the file that is named, or else the built-in one. -/
def TemplateIs (w : World) (o : Options) (text : String) : Prop :=
  match o.template with
  | none => text = raymarchTemplate
  | some path => w.read path = .ok text.toUTF8.data.toList

/-- The scene of a run: what the file that is named holds, or else the demonstration. -/
def SceneIs (w : World) (o : Options) (file : SceneFile) : Prop :=
  match o.scene with
  | none => file = demoFile
  | some path => SceneFile.load w path = .ok file

/-- All that a run splices can be had: the template, the scene, and the node that is built of it. -/
structure Granted (w : World) (o : Options) (text : String) (file : SceneFile) (n : Node) :
    Prop where
  template : TemplateIs w o text
  scene : SceneIs w o file
  node : (file.build .fresh).1 = .ok n

/-- Something that a run splices cannot be had, which the message tells. What comes before it could
be had. -/
inductive Refused (w : World) (o : Options) : String → Prop
  /-- The template cannot be read. -/
  | unread {path : String} {f : FileFault} (named : o.template = some path)
      (read : w.read path = .error f) :
      Refused w o ("Template read error (" ++ path ++ "): " ++ f.message)
  /-- The template is no text. -/
  | undecoded {path : String} {bytes : List UInt8} (named : o.template = some path)
      (read : w.read path = .ok bytes)
      (undecoded : ∀ text : String, bytes ≠ text.toUTF8.data.toList) :
      Refused w o ("Template read error (" ++ path ++ "): " ++ FileFault.notText.message)
  /-- The scene cannot be loaded. -/
  | unloaded {text path : String} {e : SceneError} (template : TemplateIs w o text)
      (named : o.scene = some path) (load : SceneFile.load w path = .error e) :
      Refused w o ("Load error (" ++ path ++ "): " ++ e.message)
  /-- The scene cannot be built. -/
  | unbuilt {text : String} {file : SceneFile} {e : SceneError} (template : TemplateIs w o text)
      (scene : SceneIs w o file) (build : (file.build .fresh).1 = .error e) :
      Refused w o ("Scene error: " ++ e.message)

/-- The template that a run takes is the one that is there. -/
theorem template_eq_ok_iff : template w o = .ok text ↔ TemplateIs w o text := by
  unfold template TemplateIs
  cases o.template with
  | none => simp [eq_comm]
  | some path =>
    dsimp only
    rw [← World.readText_eq_ok_iff]
    cases w.readText path <;> simp

/-- Only a template that is named can be missing. -/
theorem template_eq_error_iff : template w o = .error message ↔
    ∃ path f, o.template = some path ∧ w.readText path = .error f ∧
      message = "Template read error (" ++ path ++ "): " ++ f.message := by
  unfold template
  cases o.template with
  | none => simp
  | some path => cases h : w.readText path <;> simp [h, eq_comm]

/-- The scene that a run takes is the one that is there. -/
theorem scene_eq_ok_iff : scene w o = .ok file ↔ SceneIs w o file := by
  unfold scene SceneIs
  cases o.scene with
  | none => simp [eq_comm]
  | some path =>
    dsimp only
    cases SceneFile.load w path <;> simp

/-- Only a scene that is named can be missing. -/
theorem scene_eq_error_iff : scene w o = .error message ↔
    ∃ path e, o.scene = some path ∧ SceneFile.load w path = .error e ∧
      message = "Load error (" ++ path ++ "): " ++ e.message := by
  unfold scene
  cases o.scene with
  | none => simp
  | some path => cases h : SceneFile.load w path <;> simp [h, eq_comm]

/-- The node of a run is built with identifiers from zero on. -/
theorem root_eq_ok_iff : root file = .ok n ↔ (file.build .fresh).1 = .ok n := by
  unfold root
  rcases file.build .fresh with ⟨_ | _, a⟩ <;> simp

/-- A scene that cannot be built has no node. -/
theorem root_eq_error_iff : root file = .error message ↔
    ∃ e, (file.build .fresh).1 = .error e ∧ message = "Scene error: " ++ e.message := by
  unfold root
  rcases file.build .fresh with ⟨_ | _, a⟩ <;> simp [eq_comm]

/-- Everything can be had exactly if it is there. -/
theorem sources_eq_ok_iff : sources w o = .ok (text, file, n) ↔ Granted w o text file n := by
  simp only [sources, bind_eq_ok_iff, template_eq_ok_iff, scene_eq_ok_iff, root_eq_ok_iff, pure,
    Except.pure, Except.ok.injEq, Prod.mk.injEq]
  constructor
  · rintro ⟨text', htemplate, file', hscene, n', hnode, rfl, rfl, rfl⟩
    exact ⟨htemplate, hscene, hnode⟩
  · rintro ⟨htemplate, hscene, hnode⟩
    exact ⟨text, htemplate, file, hscene, n, hnode, rfl, rfl, rfl⟩

/-- The message of a run that is refused is that of the first thing that cannot be had. -/
theorem sources_eq_error_iff : sources w o = .error message ↔ Refused w o message := by
  simp only [sources, bind_eq_error_iff, template_eq_ok_iff, scene_eq_ok_iff, pure, Except.pure,
    reduceCtorEq, and_false, exists_false, or_false]
  constructor
  · rintro (h | ⟨text, htemplate, h | ⟨file, hscene, h⟩⟩)
    · obtain ⟨path, f, hnamed, hread, rfl⟩ := template_eq_error_iff.1 h
      rcases World.readText_eq_error_iff.1 hread with hread | ⟨rfl, bytes, hread, hbytes⟩
      · exact .unread hnamed hread
      · exact .undecoded hnamed hread hbytes
    · obtain ⟨path, e, hnamed, hload, rfl⟩ := scene_eq_error_iff.1 h
      exact .unloaded htemplate hnamed hload
    · obtain ⟨e, hbuild, rfl⟩ := root_eq_error_iff.1 h
      exact .unbuilt htemplate hscene hbuild
  · intro h
    cases h with
    | unread hnamed hread =>
      exact .inl (template_eq_error_iff.2
        ⟨_, _, hnamed, World.readText_eq_error_iff.2 (.inl hread), rfl⟩)
    | undecoded hnamed hread hbytes =>
      exact .inl (template_eq_error_iff.2
        ⟨_, .notText, hnamed, World.readText_eq_error_iff.2 (.inr ⟨rfl, _, hread, hbytes⟩), rfl⟩)
    | unloaded htemplate hnamed hload =>
      exact .inr ⟨_, htemplate, .inl (scene_eq_error_iff.2 ⟨_, _, hnamed, hload, rfl⟩)⟩
    | unbuilt htemplate hscene hbuild =>
      exact .inr ⟨_, htemplate, .inr ⟨_, hscene, root_eq_error_iff.2 ⟨_, hbuild, rfl⟩⟩⟩

/-! ## Delivery -/

/-- Nothing stands in the way of the file that is to be written, if one is. -/
def Writable (w : World) (o : Options) : Prop :=
  ∀ path, o.output = some path → w.refuses path = none

/-- The lines of a run on standard error: those of the log that are shown, and then one for every
directive that failed. -/
def told (o : Options) (log : List LogRecord) (failures : List DirectiveFailure) :
    List ErrorLine :=
  (shown o.verbose log).flatMap (fun r => ErrorLine.ofText (some r.level) r.shown) ++
    failures.map fun f =>
      ⟨none, ("line " ++ toString f.line ++ ": #evaluate " ++ f.tag ++ ": " ++
        f.error.message).toList⟩

/-- A run delivers a compiled template. -/
structure Delivers (w : World) (o : Options) (log : List LogRecord) (c : CompiledTemplate)
    (r : Outcome) : Prop where
  /-- The shader is printed if no file is named for it. -/
  printed : o.output = none → r.stdout = c.source ∧ r.written = none
  /-- The file that is named for the shader is written, and nothing is printed. -/
  stored : ∀ path, o.output = some path → w.refuses path = none →
    r.stdout = "" ∧ r.written = some (path, c.source)
  /-- The shader can be read where it was written, and no other file has changed. -/
  kept : ∀ (d : Directory) (path : String), d.world = w → o.output = some path →
    d.refuses path = none → d.locate path ≠ .ok (.entry .null false) →
      (r.after d).read path = .ok c.source.toUTF8.data.toList ∧
        ∀ other, d.locate other ≠ d.locate path →
          ∀ bytes, (r.after d).read other = .ok bytes ↔ d.read other = .ok bytes
  /-- Every failure is told on one line. -/
  lines : Writable w o → r.errorLines = told o log c.failures
  /-- Only a strict run minds failures. -/
  exit : Writable w o → r.exit = if o.strict = true ∧ c.failures ≠ [] then 2 else 0
  /-- A file that cannot be written fails the run, after the failures have been told. -/
  refused : ∀ path f, o.output = some path → w.refuses path = some f →
    r.exit = 1 ∧ r.stdout = "" ∧ r.written = none ∧
      r.errorLines = told o log c.failures ++
        ErrorLine.ofText none ("Error: Write error (" ++ path ++ "): " ++ f.message).toList

/-- A run as it is before the shader is delivered. -/
def undelivered (o : Options) (log : List LogRecord) (c : CompiledTemplate) : Outcome where
  exit := if o.strict && !c.isClean then 2 else 0
  stderr := c.failures.map DirectiveFailure.message
  log := shown o.verbose log

/-- Standard error before the shader is delivered. -/
theorem errorLines_undelivered (o : Options) (log : List LogRecord) (s : Splicer) (t : String) :
    (undelivered o log (s.compile t)).errorLines = told o log (s.compile t).failures := by
  have hfailures : ((s.compile t).failures.map DirectiveFailure.message).flatMap
      (fun message => ErrorLine.ofText none message.toList) =
        (s.compile t).failures.map fun f => ⟨none, f.message.toList⟩ := by
    rw [List.flatMap_map, List.map_eq_flatMap]
    exact List.flatMap_congr fun f hf => s.ofText_message hf
  exact congrArg (_ ++ ·) hfailures

/-- The exit code before the shader is delivered. -/
theorem exit_undelivered (o : Options) (log : List LogRecord) (c : CompiledTemplate) :
    (undelivered o log c).exit = if o.strict = true ∧ c.failures ≠ [] then 2 else 0 := by
  simp [undelivered, CompiledTemplate.isClean]

/-- Delivering says nothing and keeps the exit code, unless the file cannot be written. -/
theorem deliver_of_writable {r : Outcome} (h : Writable w o) :
    (r.deliver w o.output text).errorLines = r.errorLines ∧
      (r.deliver w o.output text).exit = r.exit := by
  unfold Outcome.deliver
  cases hnamed : o.output with
  | none => exact ⟨rfl, rfl⟩
  | some path =>
    dsimp only
    rw [h path hnamed]
    exact ⟨rfl, rfl⟩

/-- Whatever a compiled template is like, it is delivered. -/
theorem delivers_deliver (w : World) (o : Options) (log : List LogRecord) (s : Splicer)
    (t : String) : Delivers w o log (s.compile t)
      ((undelivered o log (s.compile t)).deliver w o.output (s.compile t).source) := by
  have hlines := errorLines_undelivered o log s t
  have hexit := exit_undelivered o log (s.compile t)
  have hstored : ∀ path, o.output = some path → w.refuses path = none →
      (undelivered o log (s.compile t)).deliver w o.output (s.compile t).source =
        { undelivered o log (s.compile t) with written := some (path, (s.compile t).source) } := by
    intro path hnamed hwritable
    rw [hnamed, Outcome.deliver, hwritable]
  constructor
  case printed =>
    intro hnamed
    rw [hnamed]
    exact ⟨rfl, rfl⟩
  case stored =>
    intro path hnamed hwritable
    rw [hstored path hnamed hwritable]
    exact ⟨rfl, rfl⟩
  case kept =>
    rintro d path rfl hnamed hwritable hnull
    rw [hstored path hnamed hwritable]
    have hread := d.read_write hwritable hnull (s.compile t).source
    exact ⟨(hread path).1 rfl, fun other => (hread other).2⟩
  case lines =>
    intro hwritable
    rw [(deliver_of_writable hwritable).1, hlines]
  case exit =>
    intro hwritable
    rw [(deliver_of_writable hwritable).2, hexit]
  case refused =>
    intro path f hnamed hrefused
    rw [hnamed, Outcome.deliver, hrefused]
    refine ⟨rfl, rfl, rfl, ?_⟩
    rw [← hlines]
    simp [Outcome.errorLines]

/-- A run of `compile` delivers a compiled template, once all that it splices can be had. -/
theorem run_of_granted (h : Granted w o text file n) :
    run w .compile o =
      (undelivered o (.built file.name n.count :: ((Splicer.mk n true).compile text).log)
        ((Splicer.mk n true).compile text)).deliver w o.output
          ((Splicer.mk n true).compile text).source := by
  rw [run, compile, sources_eq_ok_iff.2 h]
  rfl

/-- It does nothing but to tell what cannot be had, if something cannot. -/
theorem run_of_refused (h : Refused w o message) :
    run w .compile o = ⟨1, "", ["Error: " ++ message], [], none⟩ := by
  rw [run, compile, sources_eq_error_iff.2 h]
  rfl

/-- Neither the switch for strict runs nor the one for the log changes what is delivered. -/
theorem delivered_of_switches (w : World) (o : Options) (strict verbose : Bool) :
    (run w .compile { o with strict, verbose }).stdout = (run w .compile o).stdout ∧
      (run w .compile { o with strict, verbose }).written = (run w .compile o).written := by
  have hsources : sources w { o with strict, verbose } = sources w o := rfl
  simp only [run, compile, hsources]
  cases sources w o with
  | error message => exact ⟨rfl, rfl⟩
  | ok found =>
    dsimp only
    unfold Outcome.deliver
    cases o.output with
    | none => exact ⟨rfl, rfl⟩
    | some path =>
      dsimp only
      cases w.refuses path <;> exact ⟨rfl, rfl⟩

/-- **A run of `compile` delivers the compiled template or nothing.** Either the template, the scene
and its node can all be had, or the run is refused. A refused run tells the first of them that
cannot be had, and leaves every directory as it is. Any other run delivers the compiled template,
and the switches do not change what it delivers. -/
theorem compile_delivers (w : World) (o : Options) :
    let r := run w .compile o
    ((∃ message, Refused w o message) ↔ ¬∃ text file n, Granted w o text file n) ∧
    (∀ message, Refused w o message →
      r = ⟨1, "", ["Error: " ++ message], [], none⟩ ∧ ∀ d : Directory, r.after d = d) ∧
    (∀ text file n, Granted w o text file n →
      let c := (Splicer.mk n true).compile text
      Delivers w o (.built file.name n.count :: c.log) c r) ∧
    ∀ strict verbose,
      let r' := run w .compile { o with strict, verbose }
      r'.stdout = r.stdout ∧ r'.written = r.written := by
  intro r
  refine ⟨?_, fun message h => ?_, fun text file n h => ?_, delivered_of_switches w o⟩
  · simp only [← sources_eq_error_iff, ← sources_eq_ok_iff]
    cases h : sources w o with
    | error message => simp
    | ok found =>
      obtain ⟨text, file, n⟩ := found
      simp
  · have hr := run_of_refused h
    exact ⟨hr, fun d => by rw [show r.after d = _ from congrArg (Outcome.after · d) hr]; rfl⟩
  · rw [show r = _ from run_of_granted h]
    exact delivers_deliver w o _ _ text

/-- A directory with a template and a scene. -/
def shelf : Directory :=
  let scene := "\x7b\"version\":\"\",\"root\":\x7b\"type\":\"ground\"\x7d\x7d"
  .ofFiles [("shader.frag", "#evaluate sdf\n#evaluate albedo".toUTF8.data.toList),
    ("floor.json", scene.toUTF8.data.toList)]

/-- A strict run fails after the shader has been written; a run for which neither the template nor
the scene is there tells of the template. -/
theorem compile_delivers_shelf :
    let o : Options := ⟨some "shader.frag", some "floor.json", some "out.frag", true, false⟩
    let r := run shelf.world .compile o
    (∃ text file n, Granted shelf.world o text file n ∧
      ((Splicer.mk n true).compile text).failures ≠ [] ∧ r.exit = 2 ∧
      (r.after shelf).read "out.frag" =
        .ok ((Splicer.mk n true).compile text).source.toUTF8.data.toList) ∧
    r.written = some ("out.frag",
      "float sdf0 = dot(point - vec3(0.0, 0.0, 0.0), vec3(0.0, 1.0, 0.0));\n" ++
        "float sdf = sdf0;\n// #evaluate albedo: unknown property 'albedo'") ∧
    run shelf.world .compile { o with template := some "missing", scene := some "missing" } =
      ⟨1, "", ["Error: " ++ ("Template read error (" ++ "missing" ++ "): " ++
        FileFault.notFound.message)], [], none⟩ := by
  intro o r
  have hexit : r.exit = 2 := by decide +kernel
  obtain ⟨hsome, hrefused, hgranted, -⟩ := compile_delivers shelf.world o
  obtain ⟨text, file, n, h⟩ : ∃ text file n, Granted shelf.world o text file n := by
    by_contra hnone
    obtain ⟨message, hmessage⟩ := hsome.2 hnone
    have hone : r.exit = 1 := congrArg Outcome.exit (hrefused message hmessage).1
    omega
  have hdelivers := hgranted text file n h
  refine ⟨⟨text, file, n, h, fun hclean => ?_, hexit, ?_⟩, by decide +kernel, ?_⟩
  · have hwritable : Writable shelf.world o := by
      rintro path ⟨⟩
      rfl
    have hzero := hdelivers.exit hwritable
    rw [if_neg fun hall => hall.2 hclean] at hzero
    exact absurd (hexit.symm.trans hzero) (by decide)
  · exact (hdelivers.kept shelf "out.frag" rfl rfl rfl (by decide +kernel)).1
  · exact ((compile_delivers shelf.world
      { o with template := some "missing", scene := some "missing" }).2.1 _
        (.unread rfl rfl)).1

end Program

end FieldShader
