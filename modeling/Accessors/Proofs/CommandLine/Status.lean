/-
  Accessors.Proofs.CommandLine.Status — what the exit code tells.

  A command with an editor that takes what was built shows no error if and only if its
  document holds PHP, there is a declaration at or above each cursor, and some line starts
  with a closing brace (`run_errorless`). A file takes what was built on the text that it
  still has (`reply_built`), and a command that answers no has shown an error. So with
  spaces that can be held a run ends with zero if no error is shown, and with one
  otherwise (`ending_generateIn_iff`).
  - `generate_zero_iff`: on a file that can be read this is what the code tells, and with
    zero the file has gained accessors, once for each line asked for (`Gained`).
-/
import Accessors.Proofs.CommandLine.DryRun
import Accessors.Proofs.Editor.Calls
import Accessors.Proofs.Editor.Language

namespace Accessors

/-! ## A command without an error -/

namespace Command

variable {s : Settings} {d : Document} {kind : AccessorKind} {editor : Insertion → Reply}

theorem passedOver_eq_nil {lines : List Text} {cursors : List Int} :
    passedOver lines cursors = [] ↔ ∀ c ∈ cursors, Property.declared lines c = true := by
  unfold passedOver
  rw [List.map_eq_nil_iff, List.filter_eq_nil_iff]
  simp only [Bool.not_eq_true, Bool.not_eq_false']

/-- With an insertion that is accepted the only errors are those of the cursors passed
    over. -/
theorem calls_errorless {i : Insertion} (h : editor i = .accepted) :
    (∀ t, .error t ∉ (calls s d editor (.ok i)).trace) ↔ passedOver d.lines d.ordered = [] := by
  have htrace : (calls s d editor (.ok i)).trace =
      passedOver d.lines d.ordered ++ .insert i :: if s.follows then [.goTo i.redirectLine] else [] := by
    show passedOver d.lines d.ordered ++ .insert i :: (behind s i (editor i)).trace = _
    rw [h]
    rfl
  rw [htrace]
  constructor
  · intro hnone
    rw [List.eq_nil_iff_forall_not_mem]
    intro e he
    obtain rfl := mem_passedOver he
    exact hnone _ (List.mem_append_left _ he)
  · intro hnil t ht
    rw [hnil, List.nil_append, List.mem_cons] at ht
    rcases ht with ht | ht
    · cases ht
    · split at ht
      · cases List.mem_singleton.1 ht
      · cases ht

theorem run_errorless (hs : Render.Spaceable s kind)
    (haccepts : ∀ i, (build s d kind).outcome = .ok (.ok i) → editor i = .accepted) (hne : d.selections ≠ []) :
    (∀ t, .error t ∉ (run s d kind editor).trace) ↔ d.languageId = languageId ∧
      (∀ c ∈ d.selections, Property.declared d.lines c = true) ∧ ∃ l ∈ d.lines, StartsWithBrace l := by
  by_cases hlanguage : d.languageId = languageId
  swap
  · have htrace : (run s d kind editor).trace = [shown notApplicable] := by
      unfold run
      rw [if_neg hlanguage]
      rfl
    exact ⟨fun hnone => absurd (htrace ▸ List.mem_singleton_self _) (hnone _), fun h => absurd h.1 hlanguage⟩
  have hrun : run s d kind editor = runIn s d kind editor := if_pos hlanguage
  obtain ⟨aim, haim, hcalls⟩ := @keep_runIn s d kind editor hs
  have hmem : ∀ e : Event, e.isSeen = true → (e ∈ (run s d kind editor).trace ↔ e ∈ (calls s d editor aim).trace) := by
    intro e he
    rw [hrun, mem_keep he, hcalls]
  have herrors : (∀ t, .error t ∉ (run s d kind editor).trace) ↔ ∀ t, .error t ∉ (calls s d editor aim).trace :=
    forall_congr' fun t => not_congr (hmem (.error t) rfl)
  have hobstacle : ∀ o, shown o.message ∈ (calls s d editor (.error o)).trace :=
    fun o => List.mem_append_right _ List.mem_cons_self
  rw [herrors]
  cases haim with
  | nothingToInsert hundeclared =>
    refine ⟨fun hnone => absurd (hobstacle _) (hnone _), fun ⟨_, hdeclared, _⟩ => ?_⟩
    obtain ⟨c, hc⟩ := List.exists_mem_of_ne_nil _ hne
    cases (hdeclared c hc).symm.trans (hundeclared c hc)
  | noClosingBrace _ hopen =>
    refine ⟨fun hnone => absurd (hobstacle _) (hnone _), fun ⟨_, _, l, hl, hbrace⟩ => ?_⟩
    exact absurd hbrace (hopen l hl)
  | @insertion above below brace _ hcut hbrace _ =>
    have hinsert := (hmem (.insert _) rfl).2 (insert_mem_calls.2 rfl)
    have hbrace : ∃ l ∈ d.lines, StartsWithBrace l := ⟨brace, by simp [hcut], hbrace⟩
    rw [calls_errorless (haccepts _ (run_insert hinsert).1), passedOver_eq_nil]
    simp only [d.perm_ordered.mem_iff]
    exact ⟨fun hdeclared => ⟨hlanguage, hdeclared, hbrace⟩, fun h => h.2.1⟩

/-- With a property at each cursor the text of an insertion is that of their accessors. -/
theorem exists_found (s : Settings) (kind : AccessorKind) {lines : List Text} {cursors : List Int}
    (h : ∀ c ∈ cursors, Property.declared lines c = true) :
    ∃ found : List (Int × Property), found.map Prod.fst = cursors ∧
      (∀ m ∈ found, Property.at? lines m.1 = some m.2) ∧
      cursors.flatMap (renderedAt s kind lines) = found.flatMap fun m => Render.text s m.2 kind := by
  induction cursors with
  | nil => exact ⟨[], rfl, fun m hm => absurd hm List.not_mem_nil, rfl⟩
  | cons c cursors ih =>
    obtain ⟨found, hcursors, hfound, htext⟩ := ih fun e he => h e (List.mem_cons_of_mem _ he)
    obtain ⟨p, hp⟩ := Option.isSome_iff_exists.1 ((Property.isSome_at? lines c).trans (h c List.mem_cons_self))
    have hone : renderedAt s kind lines c = Render.text s p kind := by
      unfold renderedAt
      rw [hp]
      rfl
    refine ⟨(c, p) :: found, congrArg (c :: ·) hcursors, List.forall_mem_cons.2 ⟨hp, hfound⟩, ?_⟩
    rw [List.flatMap_cons, List.flatMap_cons, hone, htext]

end Command

/-- A file that held `t` has gained the accessors of the property at each of the cursors,
    from the top, above its last line that starts with a closing brace. -/
structure Gained (s : Settings) (kind : AccessorKind) (f : SourceFile) (t : Text) (cursors : List Int) (d e : Folder)
    (i : Insertion) (found : List (Int × Property)) : Prop where
  cursors : (found.map Prod.fst).Perm cursors
  sorted : (found.map Prod.fst).Pairwise (· ≤ ·)
  each : ∀ m ∈ found, Property.at? (Text.lines t) m.1 = some m.2
  rendered : ∀ m ∈ found, (Render.accessors s m.2 kind).outcome = .ok (Render.text s m.2 kind)
  text : i.text = found.flatMap fun m => Render.text s m.2 kind
  closing : ∃ L : Nat, Command.closingLine? (Text.lines t) = some L ∧ i.line = L
  inserted : ∃ before inserted behind, t = before ++ behind ∧ Inserted f i d e before inserted behind

namespace CommandLine

open SourceFile (Output)

/-! ## A run with a document -/

section Document

variable {opening : Opening} {path : Text} {f : SourceFile} {s : Settings} {d : Document} {kind : AccessorKind}

/-- Nothing but code, a confirmation and what is saved comes of an insertion. -/
theorem flatMap_inserted {α : Type} {g : Output → List α} (hout : ∀ t, g (.out t) = [])
    (hwrite : ∀ p bytes, g (.write p bytes) = []) (i : Insertion) : (f.outputs opening (.insert i)).flatMap g = [] := by
  by_cases hr : f.reply opening i = .accepted
  · obtain ⟨e, he⟩ := SourceFile.reply_eq_accepted_iff.1 hr
    rw [SourceFile.outputs_of_edited he, SourceFile.editedOutputs]
    split <;> simp [hout, hwrite]
  · rw [SourceFile.outputs_of_not_accepted hr]
    rfl

theorem errors_generateIn : (Run.generateIn opening path f s d kind).errors =
    (SourceFile.errorsOf (f.run opening s d kind).trace).map SourceFile.line := by
  have hevents : ∀ events : List Event, (⟨events.flatMap (f.outputs opening), .finished 0⟩ : Run).errors =
      (SourceFile.errorsOf events).map SourceFile.line := by
    intro events
    unfold Run.errors
    induction events with
    | nil => rfl
    | cons e events ih =>
      rw [List.flatMap_cons, List.flatMap_append, ih]
      cases e with
      | notice _ | error _ | info _ | goTo _ => rfl
      | insert i =>
        rw [flatMap_inserted (fun _ => rfl) fun _ _ => rfl]
        rfl
  cases h : (f.run opening s d kind).outcome with
  | error fault =>
    rw [generateIn_stopped h]
    exact hevents _
  | ok yes =>
    rw [generateIn_answered h, ← hevents]
    unfold Run.errors
    rw [List.flatMap_append, flatMap_goingOn fun _ => rfl, List.append_nil]

/-- A run ends with zero or one, and with zero if it has shown no error. -/
theorem ending_generateIn_iff
    (hreply : ∀ i, (Command.build s d kind).outcome = .ok (.ok i) → f.reply opening i = .accepted)
    (hs : Render.Spaceable s kind) :
    ((Run.generateIn opening path f s d kind).ending = .finished 0 ∨
      (Run.generateIn opening path f s d kind).ending = .finished 1) ∧
    ((Run.generateIn opening path f s d kind).ending = .finished 0 ↔
      SourceFile.errorsOf (f.run opening s d kind).trace = []) := by
  cases hstep : (f.run opening s d kind).outcome with
  | error fault => exact absurd hs (Command.not_spaceable_iff.2 (run_stopped hreply hstep).count)
  | ok yes =>
    rw [generateIn_answered hstep]
    cases herrors : SourceFile.errorsOf (f.run opening s d kind).trace with
    | cons t rest => cases yes <;> simp
    | nil =>
      cases yes with
      | true => simp
      | false =>
        obtain ⟨t, ht⟩ := Command.run_false_told hstep
        have hmem : t ∈ SourceFile.errorsOf (f.run opening s d kind).trace := mem_errorsOf.2 ht
        rw [herrors] at hmem
        cases hmem

theorem outcome_of_zero (h : (Run.generateIn opening path f s d kind).ending = .finished 0) :
    (f.run opening s d kind).outcome = .ok true := by
  cases hstep : (f.run opening s d kind).outcome with
  | error fault =>
    rw [generateIn_stopped hstep] at h
    cases h
  | ok yes =>
    rw [generateIn_answered hstep] at h
    cases yes with
    | true => rfl
    | false => simp at h

end Document

/-! ## What the file has gained -/

theorem gained_generateIn {folder : Folder} {path t : Text} {f : SourceFile} {s : Settings} {kind : AccessorKind}
    {selections : List Int} {languageId : Text} {uri : Option Codes} (htext : f.text folder.read = .ok (.ok t))
    (hs : Render.Spaceable s kind) (hdeclared : ∀ c ∈ selections, Property.declared (Text.lines t) c = true)
    (hwet : f.dryRun = false)
    (h : (Run.generateIn folder.read path f s (Document.ofText t selections languageId uri) kind).ending =
      .finished 0) : ∃ i found, Gained s kind f t selections folder (Workspace.folderAfter folder
      (Run.generateIn folder.read path f s (Document.ofText t selections languageId uri) kind).outputs) i found := by
  obtain ⟨i, hchanged⟩ := Command.run_true (outcome_of_zero h)
  obtain ⟨L, hclosing, hline, -, hcollected⟩ := Command.build_iff.1 hchanged.built
  have hordered : ∀ c ∈ (Document.ofText t selections languageId uri).ordered,
      Property.declared (Text.lines t) c = true :=
    fun c hc => hdeclared c ((Document.perm_ordered _).mem_iff.1 hc)
  obtain ⟨found, hcursors, hfound, hrendered⟩ := Command.exists_found s kind hordered
  have hitext : i.text = found.flatMap fun m => Render.text s m.2 kind := by
    rw [← hrendered]
    exact Except.ok.inj (hcollected.symm.trans (Command.outcome_renderAll hs _ _))
  obtain ⟨e, he⟩ := SourceFile.reply_eq_accepted_iff.1 hchanged.accepted
  have hinserted := inserted_of_edited he
  have hsaved := Workspace.folderAfter_changed hwet hchanged he folder
  refine ⟨i, found, ?_, ?_, hfound, ?_, hitext, ⟨L, hclosing, hline⟩, e.before, e.inserted, e.behind, ?_, ?_⟩
  · exact hcursors ▸ Document.perm_ordered _
  · exact hcursors ▸ Document.pairwise_ordered _
  · intro m _
    rw [Render.outcome_accessors, if_pos hs]
  · exact Except.ok.inj (Except.ok.inj (htext.symm.trans hinserted.read))
  · rw [← hsaved] at hinserted
    rw [folderAfter_generateIn]
    exact hinserted

/-! ## A run on a file that can be read -/

/-- On a file that can be read, with settings that can be read and spaces that can be held,
    a run for some lines ends with zero or one. It ends with zero if and only if the file
    holds PHP, there is a declaration at or above each of the lines, and a line of the file
    starts with a closing brace; and if and only if no error was shown. Then, unless it is
    dry, the file has gained the accessors, once for each line. Whatever the run asks to
    insert the file accepts. -/
theorem generate_zero_iff (bounds : Value.Bounds) (folder : Folder) (address path : Text) (numbers : List Int)
    (kind : AccessorKind) (config : Option Text) (dryRun : Bool) {s : Settings} {t : Text}
    (hclear : '\x00' ∉ (Path.ofText path).text) (hread : folder.read (Path.ofText path).text = .ok (Utf8.encode t))
    (hsettings : configurationOf bounds folder.read config = .ok (.ok s)) (hs : Render.Spaceable s kind)
    (hnumbers : numbers ≠ []) :
    let file := SourceFile.ofPath path dryRun
    let run := Run.generate bounds folder.read address path (numbers.map some) (some kind) config dryRun
    (run.ending = .finished 0 ∨ run.ending = .finished 1) ∧
    (run.ending = .finished 0 ↔ Text.lower file.path.suffix ∈ SourceFile.suffixes ∧
      (∀ n ∈ numbers, Property.declared (Text.lines t) (n - 1) = true) ∧ ∃ l ∈ Text.lines t, StartsWithBrace l) ∧
    (run.ending = .finished 0 ↔ run.errors = []) ∧
    (run.ending = .finished 0 → dryRun = false → ∃ i found,
      Gained s kind file t (numbers.map (· - 1)) folder (Workspace.folderAfter folder run.outputs) i found) ∧
    ∀ s d k i, Commands bounds folder.read address path (numbers.map some) (some kind) config s d k →
      .insert i ∈ (file.run folder.read s d k).trace → file.reply folder.read i = .accepted := by
  intro file run
  have htext : file.text folder.read = .ok (.ok t) := SourceFile.text_encoded hclear hread
  have hdocument : documentOf folder.read address file (numbers.map some) = .ok (.ok (Document.ofText t
      (numbers.map (· - 1)) file.languageId (some (file.path.uri address).codes))) := by
    rw [documentOf_map_some, SourceFile.document_ok htext]
  have hrun : run = .generateIn folder.read path file s (Document.ofText t (numbers.map (· - 1)) file.languageId
      (some (file.path.uri address).codes)) kind := by
    show Run.generate _ _ _ _ _ _ _ _ = _
    unfold Run.generate
    dsimp only
    rw [hsettings, show documentOf folder.read address (SourceFile.ofPath path dryRun) (numbers.map some) = _ from
      hdocument]
  obtain ⟨hends, hzero⟩ := @ending_generateIn_iff folder.read path file s (Document.ofText t (numbers.map (· - 1))
    file.languageId (some (file.path.uri address).codes)) kind (fun _ hi => SourceFile.reply_built htext hi) hs
  rw [← hrun] at hends hzero
  have herrors : run.errors = [] ↔ run.ending = .finished 0 := by
    rw [hzero, hrun, errors_generateIn, List.map_eq_nil_iff]
  have hcode : run.ending = .finished 0 ↔ Text.lower file.path.suffix ∈ SourceFile.suffixes ∧
      (∀ n ∈ numbers, Property.declared (Text.lines t) (n - 1) = true) ∧ ∃ l ∈ Text.lines t, StartsWithBrace l := by
    rw [hzero, List.eq_nil_iff_forall_not_mem]
    simp only [mem_errorsOf]
    refine (Command.run_errorless hs (fun i => SourceFile.reply_built htext) ?_).trans ?_
    · simpa [Document.ofText] using hnumbers
    · simp [Document.ofText, ← file.languageId_iff]
  refine ⟨hends, hcode, herrors.symm, ?_, ?_⟩
  · intro hzero hwet
    obtain ⟨-, hdeclared, -⟩ := hcode.1 hzero
    rw [hrun] at hzero ⊢
    exact gained_generateIn htext hs (by simpa using hdeclared) hwet hzero
  · intro s' d k i hcommands hinsert
    obtain rfl : _ = d := Except.ok.inj (Except.ok.inj (hdocument.symm.trans hcommands.document))
    exact SourceFile.reply_built htext (Command.run_insert hinsert).1

/-- On the sample the code is zero, and the file gains the getter of its one property. -/
theorem generate_zero_sample :
    let file := SourceFile.ofPath ['a', '.', 'p', 'h', 'p'] false
    let run := Run.generate ⟨1, 0⟩ Workspace.sampleFolder.folder.read [] ['a', '.', 'p', 'h', 'p'] [some 1]
      (some .getter) none false
    Render.Spaceable Settings.defaults .getter ∧ run.ending = .finished 0 ∧ run.errors = [] ∧ ∃ i found,
      Gained Settings.defaults .getter file sample [0] Workspace.sampleFolder.folder
        (Workspace.folderAfter Workspace.sampleFolder.folder run.outputs) i found := by
  intro file run
  have hs := Render.spaceable_defaults .getter
  have hread : Workspace.sampleFolder.folder.read (Path.ofText ['a', '.', 'p', 'h', 'p']).text =
      .ok (Utf8.encode sample) := by rfl
  obtain ⟨-, hcode, herrors, hgained, -⟩ := generate_zero_iff ⟨1, 0⟩ Workspace.sampleFolder.folder []
    ['a', '.', 'p', 'h', 'p'] [1] .getter none false (by decide) hread rfl hs (List.cons_ne_nil _ _)
  have hsuffix : Text.lower file.path.suffix ∈ SourceFile.suffixes := by decide +kernel
  have hdeclared : ∀ n ∈ ([1] : List Int), Property.declared (Text.lines sample) (n - 1) = true := by decide +kernel
  have hbrace : ∃ l ∈ Text.lines sample, StartsWithBrace l :=
    ⟨['\x7d'], by decide, by unfold StartsWithBrace; decide⟩
  have hzero : run.ending = .finished 0 := hcode.2 ⟨hsuffix, hdeclared, hbrace⟩
  exact ⟨hs, hzero, herrors.1 hzero, hgained hzero rfl⟩

end CommandLine

end Accessors
