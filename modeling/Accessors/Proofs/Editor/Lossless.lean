/-
  Accessors.Proofs.Editor.Lossless — no step loses what a file holds.

  Files are replaced and removed, opened and read, and a document may be older than what
  its file now holds. Whatever came before, an insertion reads the file anew, cuts that
  text between two of its lines and goes in between (`Inserted`); and a step that inserts
  nothing leaves the folder as it is (`Effect`).
  - `perform_effect`: this is all that a step can do, but for one that replaces or removes
    files itself; so along a run without such steps every file keeps what it held
    (`moveAll_kept`);
  - `moveAll_lossless`: both, at any step of any run.
-/
import Accessors.Proofs.Editor.Answer
import Accessors.Proofs.Editor.Workspace

namespace Accessors

/-- A file took an insertion: between two lines of its text, which is `before ++ behind`,
    there is now the text inserted, and nothing else is another. -/
structure Inserted (f : SourceFile) (i : Insertion) (d e : Folder) (before inserted behind : Text) : Prop where
  read : f.text d.read = .ok (.ok (before ++ behind))
  line : i.line ≤ (Text.lines (before ++ behind)).length
  cut : SourceFile.CutAt (before ++ behind) i.line before behind
  adapted : SourceFile.Adapted (before ++ behind) i.text inserted
  rewritten : Folder.Rewritten d e f.path.text (Utf8.encode (before ++ behind))
    (Utf8.encode (before ++ inserted ++ behind))

theorem inserted_of_edited {f : SourceFile} {i : Insertion} {d : Folder} {e : SourceFile.Edited}
    (h : f.edited d.read i = .ok (.ok e)) :
    Inserted f i d (d.write f.path.text (Utf8.encode e.content)) e.before e.inserted e.behind := by
  obtain ⟨old, hread, hline, hcut, hadapted⟩ := SourceFile.edited_eq_ok_iff.1 h
  obtain rfl := hcut.whole
  obtain ⟨-, bytes, hbytes, hdecode⟩ := SourceFile.text_iff.1 hread
  obtain rfl := Utf8.decode_eq_ok_iff.1 hdecode
  exact ⟨hread, hline, hcut, hadapted, Folder.write_rewritten hbytes _⟩

theorem Inserted.kept {f : SourceFile} {i : Insertion} {d e : Folder} {before inserted behind : Text}
    (h : Inserted f i d e before inserted behind) : Folder.Kept d e := by
  refine h.rewritten.kept ?_
  rw [Utf8.encode_append, Utf8.encode_append, Utf8.encode_append]
  exact (List.sublist_append_left _ _).append_right _

namespace Workspace

/-- A step that replaces or removes files by itself. -/
def Action.Replaces : Action → Prop
  | .put _ _ | .remove _ => True
  | _ => False

/-- The insertion that a step can ask for: its own, or the one that the command builds of
    the document last read, which may be an older one. -/
inductive Asks (w : Workspace) : Action → Insertion → Prop where
  | insert (i : Insertion) : Asks w (.insert i) i
  | run {s : Settings} {kind : AccessorKind} {d : Document} {i : Insertion} : w.document = some d →
      (Command.build s d kind).outcome = .ok (.ok i) → Asks w (.run s kind) i

/-- What a step does to the folder. -/
inductive Effect (w : Workspace) (action : Action) (done : Done) : Prop where
  | inserted {f : SourceFile} {i : Insertion} {before inserted behind : Text} : w.file = some f → f.dryRun = false →
      Asks w action i → done.answer = .changed true →
      Inserted f i w.folder done.after.folder before inserted behind → Effect w action done
  | untouched : (done.answer = .changed true → ∃ f, w.file = some f ∧ f.dryRun = true) →
      done.after.folder = w.folder → Effect w action done

theorem Effect.kept {w : Workspace} {action : Action} {done : Done} (h : Effect w action done) :
    Folder.Kept w.folder done.after.folder := by
  cases h with
  | inserted _ _ _ _ h => exact h.kept
  | untouched _ h =>
    rw [h]
    exact Folder.Kept.refl _

/-! ## One step -/

section Step

variable {w : Workspace} {address : Text} {f : SourceFile} {action : Action}

theorem effect_of_quiet {answer : Answer} (h : answer ≠ .changed true) : Effect w action (w.quiet answer) :=
  .untouched (fun e => absurd e h) rfl

/-- Events of the open file that put one insertion into it, which a dry run does not. -/
theorem effect_of_accepted (hfile : w.file = some f) {i : Insertion} (hasks : Asks w action i) {e : SourceFile.Edited}
    (he : f.edited w.folder.read i = .ok (.ok e)) {events : List Event} {answer : Answer}
    (hanswer : answer = .changed true) (hsaved : f.dryRun = false →
      folderAfter w.folder (events.flatMap (f.outputs w.folder.read)) =
        w.folder.write f.path.text (Utf8.encode e.content)) : Effect w action (w.through f events answer) := by
  cases hdry : f.dryRun with
  | true =>
    refine .untouched (fun _ => ⟨f, hfile, hdry⟩) ?_
    exact folderAfter_quiet (fun _ _ => .inl hdry) w.folder
  | false =>
    have hinserted := inserted_of_edited he
    rw [← hsaved hdry] at hinserted
    exact .inserted hfile hdry hasks hanswer hinserted

/-- Events of the open file that put nothing into it. -/
theorem effect_of_not_accepted {events : List Event} {answer : Answer} (hanswer : answer ≠ .changed true)
    (h : ∀ i, .insert i ∈ events → f.reply w.folder.read i ≠ .accepted) :
    Effect w action (w.through f events answer) := by
  refine .untouched (fun e => absurd e hanswer) ?_
  exact folderAfter_quiet (fun i hi => .inr (h i hi)) w.folder

theorem insert_effect (hfile : w.file = some f) (i : Insertion) :
    Effect w (.insert i) (w.through f [.insert i] (ofReply (f.reply w.folder.read i))) := by
  by_cases hr : f.reply w.folder.read i = .accepted
  · obtain ⟨e, he⟩ := SourceFile.reply_eq_accepted_iff.1 hr
    refine effect_of_accepted hfile (.insert i) he (congrArg ofReply hr) fun hwet => ?_
    rw [List.flatMap_singleton, folderAfter_insert hwet he]
  · refine effect_of_not_accepted ?_ ?_
    · cases hreply : f.reply w.folder.read i with
      | accepted => exact absurd hreply hr
      | refused | failed reason | broken fault =>
        intro hyes
        cases hyes
    · intro j hj
      rw [Event.insert.inj (List.mem_singleton.1 hj)]
      exact hr

theorem run_effect (hfile : w.file = some f) (s : Settings) (kind : AccessorKind) :
    Effect w (.run s kind) (w.runCommand f s kind) := by
  unfold runCommand
  cases hd : w.document with
  | none => exact effect_of_quiet Answer.noConfusion
  | some d =>
    by_cases hyes : (f.run w.folder.read s d kind).outcome = .ok true
    · obtain ⟨i, hchanged⟩ := Command.run_true hyes
      obtain ⟨e, he⟩ := SourceFile.reply_eq_accepted_iff.1 hchanged.accepted
      exact effect_of_accepted hfile (.run hd hchanged.built) he (congrArg ofOutcome hyes)
        fun hwet => folderAfter_changed hwet hchanged he w.folder
    · exact effect_of_not_accepted (fun h => hyes (outcome_of_changed h))
        fun i hi hr => hyes ((Command.run_insert hi).2 hr)

theorem read_effect (selections : List Int) : Effect w (.read selections) (w.readDocument address f selections) := by
  unfold readDocument
  split
  · exact .untouched (fun h => by cases h) rfl
  · exact effect_of_quiet Answer.noConfusion
  · exact effect_of_quiet Answer.noConfusion

theorem performIn_effect (hfile : w.file = some f) (action : Action) : Effect w action (w.performIn address f action) := by
  cases action with
  | read selections => exact read_effect selections
  | insert i => exact insert_effect hfile i
  | run s kind => exact run_effect hfile s kind
  | goTo line | info t | error t => exact .untouched (fun h => by cases h) rfl
  | put names item | remove names | openFile path dryRun => exact effect_of_quiet Answer.noConfusion

theorem perform_effect (hkeeps : ¬action.Replaces) : Effect w action (w.perform address action) := by
  cases action with
  | put names item | remove names => exact absurd trivial hkeeps
  | openFile path dryRun => exact .untouched (fun h => by cases h) rfl
  | read _ | insert _ | goTo _ | info _ | error _ | run _ _ =>
    unfold perform
    cases hfile : w.file with
    | none => exact effect_of_quiet Answer.noConfusion
    | some f => exact performIn_effect hfile _

/-- An insertion into a file that can be read is refused past the last line, and else made.
    It stops there if the number of the line is too long for the refusal to tell. -/
theorem perform_insert_answer (hfile : w.file = some f) {old : Text} (hold : f.text w.folder.read = .ok (.ok old))
    (i : Insertion) : (w.perform address (.insert i)).answer =
      if (Text.lines old).length < i.line then
        if IntText.maxDigits < (Text.ofNat i.line.natAbs).length then .stopped (.wholeNumber .tooLarge)
        else .refused (f.refusal i.line)
      else .changed true := by
  have hanswer : (w.perform address (.insert i)).answer = ofReply (f.reply w.folder.read i) := by
    unfold perform
    rw [hfile]
    rfl
  rw [hanswer, SourceFile.reply_of_text hold]
  split
  · split <;> rfl
  · rfl

end Step

/-! ## A run of steps -/

/-- A move of a run: a step, or a turn to another file and another document, such as those
    that were at hand before. -/
inductive Move where
  | step (action : Action)
  | turnTo (file : Option SourceFile) (document : Option Document) (events : List Event)

def Move.Replaces : Move → Prop
  | .step action => action.Replaces
  | .turnTo _ _ _ => False

def move (w : Workspace) (address : Text) : Move → Workspace
  | .step action => (w.perform address action).after
  | .turnTo file document events => ⟨w.folder, file, document, events⟩

def moveAll (w : Workspace) (address : Text) (moves : List Move) : Workspace :=
  moves.foldl (fun w m => w.move address m) w

theorem move_kept {m : Move} (h : ¬m.Replaces) (w : Workspace) (address : Text) :
    Folder.Kept w.folder (w.move address m).folder := by
  cases m with
  | step action => exact (perform_effect h).kept
  | turnTo file document events => exact Folder.Kept.refl _

theorem moveAll_kept {moves : List Move} (h : ∀ m ∈ moves, ¬m.Replaces) (w : Workspace) (address : Text) :
    Folder.Kept w.folder (w.moveAll address moves).folder := by
  induction moves generalizing w with
  | nil => exact Folder.Kept.refl _
  | cons m moves ih =>
    have hmove := move_kept (h m List.mem_cons_self) w address
    exact hmove.trans (ih (fun n hn => h n (List.mem_cons_of_mem _ hn)) _)

/-- At any step of any run, with any of the files and documents that are at hand: the
    folder is left as it was, and always is if the answer is not yes or the run is dry; or
    the open file took the insertion that was asked for, and nothing else is another. Past
    the last line of a file that can be read an insertion is refused, if the refusal can
    tell the number of the line. As long as no file is replaced or removed, every file keeps
    what it held. -/
theorem moveAll_lossless (w : Workspace) (address : Text) (earlier later : List Move) {action : Action}
    (hkeeps : ∀ m ∈ .step action :: later, ¬m.Replaces) :
    let now := w.moveAll address earlier
    Effect now action (now.perform address action) ∧
    (∀ i f old, action = .insert i → now.file = some f → f.text now.folder.read = .ok (.ok old) →
      (now.perform address action).answer =
        if (Text.lines old).length < i.line then
          if IntText.maxDigits < (Text.ofNat i.line.natAbs).length then .stopped (.wholeNumber .tooLarge)
          else .refused (f.refusal i.line)
        else .changed true) ∧
    Folder.Kept now.folder (now.moveAll address (.step action :: later)).folder := by
  refine ⟨perform_effect (hkeeps (.step action) List.mem_cons_self), ?_, moveAll_kept hkeeps _ _⟩
  rintro i f old rfl hfile hold
  exact perform_insert_answer hfile hold i

/-- A line above the last one of the sample. -/
def aboveLast : Insertion := ⟨-1, ['/', '/', '\n']⟩

theorem moveAll_lossless_sample : (∀ m ∈ [Move.step (.insert aboveLast)], ¬m.Replaces) ∧ ∃ before inserted behind,
    Inserted sampleFile aboveLast sampleFolder.folder
      (sampleFolder.perform [] (.insert aboveLast)).after.folder before inserted behind := by
  have hkeeps : ∀ m ∈ [Move.step (.insert aboveLast)], ¬m.Replaces := by
    intro m hm
    rw [List.mem_singleton.1 hm]
    exact id
  have hold : sampleFile.text sampleFolder.folder.read = .ok (.ok sample) := by rfl
  obtain ⟨heffect, hanswer, -⟩ := moveAll_lossless sampleFolder [] [] [] hkeeps
  have hyes : (sampleFolder.perform [] (.insert aboveLast)).answer = .changed true := hanswer _ _ _ rfl rfl hold
  refine ⟨hkeeps, ?_⟩
  cases heffect with
  | inserted hfile _ hasks _ hinserted =>
    cases hfile
    cases hasks
    exact ⟨_, _, _, hinserted⟩
  | untouched hdry _ =>
    obtain ⟨f, hfile, hwet⟩ := hdry hyes
    cases hfile
    cases hwet

end Workspace

end Accessors
