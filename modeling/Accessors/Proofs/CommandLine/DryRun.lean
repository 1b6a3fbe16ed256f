/-
  Accessors.Proofs.CommandLine.DryRun — what a dry run tells of the real one.

  Up to its command a run is the same whether it is dry or not, and so is what the command
  does: the file replies to an insertion as it would in the other run (`flatMap_outputs`).
  They differ only in what is seen of an insertion that is accepted, which is shown or
  saved, and in that a dry run does not say where to go on. So all that either says of
  errors is the same (`flatMap_generateIn`), and what the dry run shows is the text that
  the real one puts into the file (`stdout_accepted`).
  - `dryRun_foretells`: in any folder, with any settings and any arguments, the dry run
    leaves the folder alone and foretells the real one.
-/
import Accessors.Proofs.CommandLine.Answer
import Accessors.Proofs.Editor.Lossless

namespace Accessors.CommandLine

open SourceFile (Output)

def Run.stdout (r : Run) : Text := r.outputs.flatMap outText

def Run.stderr (setup : Option Log.Setup) (moment : Log.Moment) (r : Run) : Text :=
  r.outputs.flatMap (errText setup moment)

/-- The errors that a run has shown. -/
def Run.errors (r : Run) : List Text :=
  r.outputs.flatMap fun o => match o with | .err t => [t] | _ => []

/-! ## Both runs of a command -/

/-- An insertion that a run asks for, and that the file accepts. -/
structure Accepts (bounds : Value.Bounds) (opening : Opening) (folder path : Text) (lines : List (Option Int))
    (kind : Option AccessorKind) (config : Option Text) (i : Insertion) : Prop where
  asked : ∃ s d k, Commands bounds opening folder path lines kind config s d k ∧
    .insert i ∈ ((SourceFile.ofPath path false).run opening s d k).trace
  accepted : (SourceFile.ofPath path false).reply opening i = .accepted

section Command

variable {opening : Opening} {path : Text} {s : Settings} {d : Document} {k : AccessorKind}

theorem ending_generateIn : (Run.generateIn opening path (SourceFile.ofPath path false) s d k).ending =
    (Run.generateIn opening path (SourceFile.ofPath path true) s d k).ending := by
  cases h : ((SourceFile.ofPath path false).run opening s d k).outcome with
  | error fault => rw [generateIn_stopped h, generateIn_stopped (f := SourceFile.ofPath path true) h]
  | ok yes =>
    rw [generateIn_answered h, generateIn_answered (f := SourceFile.ofPath path true) h]
    rfl

/-- Where to go on is nothing but a notice. -/
theorem flatMap_goingOn {α : Type} {g : Output → List α} (hgoing : ∀ line, g (.notice (continueAt path line)) = [])
    (dryRun ok : Bool) (cursor : Option Int) : (goingOn path dryRun ok cursor).flatMap g = [] := by
  cases cursor with
  | none => rfl
  | some line =>
    unfold goingOn
    dsimp only
    split
    · rw [List.flatMap_singleton, hgoing]
    · rfl

section Alike

variable {α : Type} {g : Output → List α} (hout : ∀ t, g (.out t) = []) (hwrite : ∀ p bytes, g (.write p bytes) = [])

include hout hwrite

theorem flatMap_outputs (e : Event) : ((SourceFile.ofPath path false).outputs opening e).flatMap g =
    ((SourceFile.ofPath path true).outputs opening e).flatMap g := by
  cases e with
  | notice _ | error _ | info _ | goTo _ => rfl
  | insert i =>
    -- Both files reply alike, as a reply does not depend on whether the run is dry.
    by_cases hr : (SourceFile.ofPath path false).reply opening i = .accepted
    · obtain ⟨e, he⟩ := SourceFile.reply_eq_accepted_iff.1 hr
      rw [SourceFile.outputs_of_edited he, SourceFile.outputs_of_edited (f := SourceFile.ofPath path true) he]
      simp [SourceFile.editedOutputs, SourceFile.ofPath, hout, hwrite]
    · rw [SourceFile.outputs_of_not_accepted hr,
        SourceFile.outputs_of_not_accepted (f := SourceFile.ofPath path true) hr]

/-- What is neither shown code nor saved is seen alike of both. -/
theorem flatMap_generateIn (hgoing : ∀ line, g (.notice (continueAt path line)) = []) :
    (Run.generateIn opening path (SourceFile.ofPath path false) s d k).outputs.flatMap g =
      (Run.generateIn opening path (SourceFile.ofPath path true) s d k).outputs.flatMap g := by
  have htrace : ∀ events : List Event, (events.flatMap ((SourceFile.ofPath path false).outputs opening)).flatMap g =
      (events.flatMap ((SourceFile.ofPath path true).outputs opening)).flatMap g := by
    intro events
    simp only [List.flatMap_assoc, flatMap_outputs hout hwrite]
  cases h : ((SourceFile.ofPath path false).run opening s d k).outcome with
  | error fault =>
    rw [generateIn_stopped h, generateIn_stopped (f := SourceFile.ofPath path true) h]
    exact htrace _
  | ok yes =>
    rw [generateIn_answered h, generateIn_answered (f := SourceFile.ofPath path true) h, List.flatMap_append,
      List.flatMap_append, flatMap_goingOn hgoing, flatMap_goingOn hgoing, List.append_nil, List.append_nil]
    exact htrace _

end Alike

/-! ## What a dry run shows -/

theorem outText_quiet {f : SourceFile} {e : Event} (h : e.IsMessage ∨ ∃ line, e = .goTo line) :
    (f.outputs opening e).flatMap outText = [] := by
  rcases h with (⟨n, rfl⟩ | ⟨t, rfl⟩) | ⟨line, rfl⟩ <;> rfl

theorem stdout_generateIn : (Run.generateIn opening path (SourceFile.ofPath path true) s d k).stdout =
    ((SourceFile.ofPath path true).run opening s d k).trace.flatMap fun e =>
      ((SourceFile.ofPath path true).outputs opening e).flatMap outText := by
  unfold Run.stdout
  rw [← List.flatMap_assoc]
  cases h : ((SourceFile.ofPath path true).run opening s d k).outcome with
  | error fault => rw [generateIn_stopped h]
  | ok yes =>
    have hon : ∀ cursor, goingOn path true yes cursor = [] := by
      intro cursor
      cases cursor with
      | none => rfl
      | some line => cases yes <;> rfl
    rw [generateIn_answered h]
    show (_ ++ goingOn path true yes _).flatMap outText = _
    rw [hon, List.append_nil]

/-- Code is shown for an insertion that is accepted, as it would be put in. -/
theorem stdout_accepted {i : Insertion} {e : SourceFile.Edited}
    (h : Command.Changed s d k ((SourceFile.ofPath path true).reply opening) i
      ((SourceFile.ofPath path true).run opening s d k).trace)
    (he : (SourceFile.ofPath path true).edited opening i = .ok (.ok e)) :
    (Run.generateIn opening path (SourceFile.ofPath path true) s d k).stdout = e.inserted := by
  obtain ⟨before, behind, hevents, hbefore, hbehind, -⟩ := h.once
  have hquiet : ∀ m : List Event, (∀ e ∈ m, e.IsMessage ∨ e = .goTo i.redirectLine) →
      (m.flatMap fun e => ((SourceFile.ofPath path true).outputs opening e).flatMap outText) = [] := by
    intro m hm
    rw [List.flatMap_eq_nil_iff]
    intro e he
    exact outText_quiet ((hm e he).imp_right fun h => ⟨_, h⟩)
  rw [stdout_generateIn, hevents, List.flatMap_append, List.flatMap_cons, hquiet before fun e he => .inl (hbefore e he),
    hquiet behind hbehind, SourceFile.outputs_of_edited he, List.nil_append, List.append_nil]
  exact List.append_nil _

/-- Without one nothing is shown. -/
theorem stdout_not_accepted (h : ∀ i, .insert i ∈ ((SourceFile.ofPath path true).run opening s d k).trace →
    (SourceFile.ofPath path true).reply opening i ≠ .accepted) :
    (Run.generateIn opening path (SourceFile.ofPath path true) s d k).stdout = [] := by
  rw [stdout_generateIn, List.flatMap_eq_nil_iff]
  intro e he
  rcases Command.run_events e he with hmessage | ⟨i, -, rfl | rfl⟩
  · exact outText_quiet (.inl hmessage)
  · rw [SourceFile.outputs_of_not_accepted (h i he)]
    rfl
  · exact outText_quiet (.inr ⟨_, rfl⟩)

end Command

/-! ## What a run saves -/

section Folder

variable {folder : Folder} {path : Text} {s : Settings} {d : Document} {k : AccessorKind}

theorem documentOf_ok {opening : Opening} {address : Text} {f : SourceFile} {lines : List (Option Int)}
    (h : documentOf opening address f lines = .ok (.ok d)) :
    ∃ t selections uri, f.text opening = .ok (.ok t) ∧ d = Document.ofText t selections f.languageId uri := by
  unfold documentOf at h
  split at h
  · unfold SourceFile.document at h
    cases ht : f.text opening with
    | error fault =>
      rw [ht] at h
      cases h
    | ok r =>
      rw [ht] at h
      cases r with
      | error reason => cases h
      | ok t =>
        obtain rfl := Except.ok.inj (Except.ok.inj h)
        exact ⟨t, _, _, rfl, rfl⟩
  · cases h

theorem folderAfter_generateIn {opening : Opening} {f : SourceFile} :
    Workspace.folderAfter folder (Run.generateIn opening path f s d k).outputs =
      Workspace.folderAfter folder ((f.run opening s d k).trace.flatMap (f.outputs opening)) := by
  cases h : (f.run opening s d k).outcome with
  | error fault => rw [generateIn_stopped h]
  | ok yes =>
    rw [generateIn_answered h]
    show Workspace.folderAfter folder (_ ++ _) = _
    rw [Workspace.folderAfter_append]
    unfold goingOn
    split
    · split <;> rfl
    · rfl

/-- The real run puts what the dry one showed above the last closing brace. -/
theorem inserted_generateIn {address : Text} {lines : List (Option Int)}
    (hdocument : documentOf folder.read address (SourceFile.ofPath path false) lines = .ok (.ok d)) {i : Insertion}
    (hasked : .insert i ∈ ((SourceFile.ofPath path false).run folder.read s d k).trace)
    (haccepted : (SourceFile.ofPath path false).reply folder.read i = .accepted) :
    ∃ before behind L, Command.closingLine? (Text.lines (before ++ behind)) = some L ∧
      before = ((Text.linesKept (before ++ behind)).take L).flatten ∧
      Inserted (SourceFile.ofPath path false) i folder
        (Workspace.folderAfter folder (Run.generateIn folder.read path (SourceFile.ofPath path false) s d k).outputs)
        before (Run.generateIn folder.read path (SourceFile.ofPath path true) s d k).stdout behind := by
  obtain ⟨hbuilt, hyes⟩ := Command.run_insert hasked
  obtain ⟨j, hchanged⟩ := Command.run_true (hyes haccepted)
  obtain rfl : j = i := Except.ok.inj (Except.ok.inj (hchanged.built.symm.trans hbuilt))
  obtain ⟨e, he⟩ := SourceFile.reply_eq_accepted_iff.1 haccepted
  have hinserted := inserted_of_edited he
  obtain ⟨t, selections, uri, ht, rfl⟩ := documentOf_ok hdocument
  obtain ⟨L, T, hfits⟩ := SourceFile.fits_of_build ht hbuilt
  obtain rfl : t = e.before ++ e.behind := Except.ok.inj (Except.ok.inj (ht.symm.trans hinserted.read))
  refine ⟨e.before, e.behind, L, hfits.closing, ?_, ?_⟩
  · have hlines := hinserted.cut.lines
    rw [hfits.line] at hlines
    exact hlines
  · have hshown : (Run.generateIn folder.read path (SourceFile.ofPath path true) s _ k).stdout = e.inserted :=
      stdout_accepted hchanged he
    have hsaved := Workspace.folderAfter_changed rfl hchanged he folder
    rw [folderAfter_generateIn, hshown]
    rw [← hsaved] at hinserted
    exact hinserted

/-- The run saves nothing if no insertion is accepted, and if it is dry. -/
theorem folder_generateIn {opening : Opening} {f : SourceFile}
    (h : ∀ i, .insert i ∈ (f.run opening s d k).trace → f.dryRun = true ∨ f.reply opening i ≠ .accepted) :
    Workspace.folderAfter folder (Run.generateIn opening path f s d k).outputs = folder := by
  rw [folderAfter_generateIn]
  exact Workspace.folderAfter_quiet h folder

end Folder

/-! ## Both runs -/

/-- Where to go on is not written at the level that is taken if none is asked for. -/
theorem errText_continueAt (format : Text) (moment : Log.Moment) (path : Text) (line : Int) :
    errText (some (Log.Setup.ofNames Log.Setup.defaultLevel format)) moment (.notice (continueAt path line)) = [] := by
  have hlevel : Log.Level.requested Log.Setup.defaultLevel = Log.Level.warning := by decide
  have hdisabled : Log.Setup.isEnabled (some (Log.Setup.ofNames Log.Setup.defaultLevel format))
      (continueAt path line).logger (continueAt path line).level = false := by
    unfold Log.Setup.ofNames
    rw [hlevel]
    rfl
  have hunwritten : Log.Setup.written (some (Log.Setup.ofNames Log.Setup.defaultLevel format))
      ⟨continueAt path line, [], moment, none⟩ = [] := by
    unfold Log.Setup.written
    exact if_neg fun h => Bool.false_ne_true (hdisabled.symm.trans h)
  exact congrArg Text.ofCodes hunwritten

/-- In any folder, with any settings and for any arguments a dry run leaves the folder as
    it is, and the real run ends as it does, shows the same errors and, unless a level of
    the log is asked for, writes the same on the stream of errors. If an insertion is
    accepted, then the real run puts exactly what the dry one showed above the last line
    that starts with a closing brace. Else the dry run shows nothing and the real one
    leaves the folder as it is. -/
theorem dryRun_foretells (bounds : Value.Bounds) (folder : Folder) (address path : Text) (lines : List (Option Int))
    (kind : Option AccessorKind) (config : Option Text) :
    let dry := Run.generate bounds folder.read address path lines kind config true
    let real := Run.generate bounds folder.read address path lines kind config false
    Workspace.folderAfter folder dry.outputs = folder ∧
    real.ending = dry.ending ∧
    real.errors = dry.errors ∧
    (∀ format moment, real.stderr (some (.ofNames Log.Setup.defaultLevel format)) moment =
      dry.stderr (some (.ofNames Log.Setup.defaultLevel format)) moment) ∧
    (∀ i, Accepts bounds folder.read address path lines kind config i →
      ∃ before behind L, Command.closingLine? (Text.lines (before ++ behind)) = some L ∧
        before = ((Text.linesKept (before ++ behind)).take L).flatten ∧
        Inserted (SourceFile.ofPath path false) i folder (Workspace.folderAfter folder real.outputs)
          before dry.stdout behind) ∧
    ((∀ i, ¬Accepts bounds folder.read address path lines kind config i) →
      dry.stdout = [] ∧ Workspace.folderAfter folder real.outputs = folder) := by
  intro dry real
  rcases generate_cases bounds folder.read address path lines kind config with
    ⟨run, hrun, hhalted, hnone⟩ | ⟨s, d, k, hcommands, hrun⟩
  · have hfolder : Workspace.folderAfter folder run.outputs = folder := by cases hhalted <;> rfl
    have hstdout : run.stdout = [] := by cases hhalted <;> rfl
    have hdry : dry = run := hrun true
    have hreal : real = run := hrun false
    rw [hdry, hreal]
    refine ⟨hfolder, rfl, rfl, fun _ _ => rfl, fun i hi => ?_, fun _ => ⟨hstdout, hfolder⟩⟩
    obtain ⟨s, d, k, hcommands, -⟩ := hi.asked
    exact absurd hcommands (hnone s d k)
  · have hdry : dry = .generateIn folder.read path (SourceFile.ofPath path true) s d k := hrun true
    have hreal : real = .generateIn folder.read path (SourceFile.ofPath path false) s d k := hrun false
    rw [hdry, hreal]
    refine ⟨folder_generateIn fun _ _ => .inl rfl, ending_generateIn, ?_, fun format moment => ?_, fun i hi => ?_,
      fun hnone => ?_⟩
    · exact flatMap_generateIn (fun _ => rfl) (fun _ _ => rfl) fun _ => rfl
    · exact flatMap_generateIn (fun _ => rfl) (fun _ _ => rfl) (errText_continueAt format moment path)
    · obtain ⟨_, _, _, hsame, hasked⟩ := hi.asked
      obtain ⟨rfl, rfl, rfl⟩ := hcommands.unique hsame
      exact inserted_generateIn hcommands.document hasked hi.accepted
    · have hrefused : ∀ i, .insert i ∈ ((SourceFile.ofPath path false).run folder.read s d k).trace →
          (SourceFile.ofPath path false).reply folder.read i ≠ .accepted :=
        fun i hi hr => hnone i ⟨⟨s, d, k, hcommands, hi⟩, hr⟩
      exact ⟨stdout_not_accepted hrefused, folder_generateIn fun i hi => .inr (hrefused i hi)⟩

/-- On the sample an insertion is accepted, and the dry run shows code, which is put in. -/
theorem dryRun_foretells_sample :
    let folder := Workspace.sampleFolder.folder
    let run := Run.generate ⟨1, 0⟩ folder.read [] ['a', '.', 'p', 'h', 'p'] [some 1] (some .getter) none
    ∃ i before behind,
      Accepts ⟨1, 0⟩ folder.read [] ['a', '.', 'p', 'h', 'p'] [some 1] (some .getter) none i ∧
      (run true).stdout ≠ [] ∧
      Inserted Workspace.sampleFile i folder (Workspace.folderAfter folder (run false).outputs) before
        (run true).stdout behind := by
  intro folder run
  have hold : Workspace.sampleFile.text folder.read = .ok (.ok sample) := by rfl
  have hlanguage : Workspace.sampleFile.languageId = Command.languageId := by decide +kernel
  have hdocument : documentOf folder.read [] Workspace.sampleFile [some 1] = .ok (.ok
      (Document.ofText sample [0] Workspace.sampleFile.languageId (some (Workspace.sampleFile.path.uri []).codes))) :=
    SourceFile.document_ok hold [] [0]
  obtain ⟨i, hi⟩ := Command.build_sample Workspace.sampleFile.languageId (some (Workspace.sampleFile.path.uri []).codes)
  obtain ⟨j, hchanged⟩ := Command.run_true
    (Command.run_of_accepted hlanguage hi (SourceFile.reply_built hold hi) Settings.defaults.outcome_redirect)
  have haccepts : Accepts ⟨1, 0⟩ folder.read [] ['a', '.', 'p', 'h', 'p'] [some 1] (some .getter) none j :=
    ⟨⟨Settings.defaults, _, .getter, ⟨rfl, hdocument, rfl⟩, hchanged.asked⟩, hchanged.accepted⟩
  obtain ⟨-, -, -, -, haccepted, -⟩ :=
    dryRun_foretells ⟨1, 0⟩ folder [] ['a', '.', 'p', 'h', 'p'] [some 1] (some .getter) none
  obtain ⟨before, behind, L, -, -, hinserted⟩ := haccepted j haccepts
  refine ⟨j, before, behind, haccepts, ?_, hinserted⟩
  -- The sample has no carriage return, so the text goes in as it was built.
  have hwhole : sample = before ++ behind := Except.ok.inj (Except.ok.inj (hold.symm.trans hinserted.read))
  have hplain : ¬['\r', '\n'] <:+: before ++ behind := by
    rw [← hwhole, ← Text.contains_iff]
    decide
  obtain ⟨-, -, -, htext, -⟩ := Command.build_iff.1 hchanged.built
  rw [hinserted.adapted.plain hplain]
  exact htext

end Accessors.CommandLine
