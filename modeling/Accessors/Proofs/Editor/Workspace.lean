/-
  Accessors.Proofs.Editor.Workspace — a command on a file of a folder.

  A document is read from the open file, and a command is worked through on it while the
  file is as it was. If the command answers yes, then the file is saved once, with the
  lines of the insertion before its closing line (`run_saves`): no more is written than
  that (`folderAfter_quiet`), and what was written is what is read (`text_write`).
-/
import Accessors.Editor.Workspace
import Accessors.Proofs.Disk.Folder
import Accessors.Proofs.Editor.Command
import Accessors.Proofs.Editor.SourceFile
import Accessors.Proofs.Editor.Splice
import Accessors.Text.Utf8.Lemmas

namespace Accessors

namespace SourceFile

theorem text_write {f : SourceFile} {d : Folder} {old : Text} (h : f.text d.read = .ok (.ok old)) (new : Text) :
    f.text (d.write f.path.text (Utf8.encode new)).read = .ok (.ok new) := by
  obtain ⟨hnull, bytes, hread, -⟩ := text_iff.1 h
  exact text_iff.2 ⟨hnull, _, Folder.read_write hread _, Utf8.decode_encode new⟩

theorem document_ok {f : SourceFile} {opening : Opening} {t : Text} (h : f.text opening = .ok (.ok t)) (address : Text)
    (selections : List Int) : f.document opening address selections =
      .ok (.ok (Document.ofText t selections f.languageId (some (f.path.uri address).codes))) := by
  unfold document
  rw [h]
  rfl

/-- The last line that the cursor was sent to. -/
theorem cursorAfter_getLast {events : List Event} {line : Int} (h : events.getLast? = some (.goTo line)) :
    cursorAfter events = some line := by
  obtain ⟨before, rfl⟩ := List.getLast?_eq_some_iff.1 h
  unfold cursorAfter
  rw [List.foldl_append]
  rfl

end SourceFile

namespace Workspace

/-- Nothing is written but by an insertion that is accepted, and not in a dry run. -/
theorem folderAfter_quiet {f : SourceFile} {opening : Opening} {events : List Event}
    (h : ∀ i, .insert i ∈ events → f.dryRun = true ∨ f.reply opening i ≠ .accepted) (d : Folder) :
    folderAfter d (events.flatMap (f.outputs opening)) = d := by
  induction events with
  | nil => rfl
  | cons e events ih =>
    have hrest := ih fun i hi => h i (List.mem_cons_of_mem _ hi)
    rw [List.flatMap_cons, folderAfter_append]
    have hone : folderAfter d (f.outputs opening e) = d := by
      cases e with
      | notice n | error t | info t | goTo line => rfl
      | insert i =>
        by_cases hr : f.reply opening i = .accepted
        · have hdry := (h i List.mem_cons_self).resolve_right fun hn => hn hr
          obtain ⟨e, he⟩ := SourceFile.reply_eq_accepted_iff.1 hr
          rw [SourceFile.outputs_of_edited he, SourceFile.editedOutputs, if_pos hdry]
          rfl
        · rw [SourceFile.outputs_of_not_accepted hr]
          rfl
    rw [hone, hrest]

theorem folderAfter_insert {f : SourceFile} (hwet : f.dryRun = false) {opening : Opening} {i : Insertion}
    {e : SourceFile.Edited} (h : f.edited opening i = .ok (.ok e)) (d : Folder) :
    folderAfter d (f.outputs opening (.insert i)) = d.write f.path.text (Utf8.encode e.content) := by
  rw [SourceFile.outputs_of_edited h, SourceFile.editedOutputs, if_neg (by simp [hwet])]
  rfl

/-- What was done to a file in which a command put `text` before line `L`. -/
structure Saved (s : Settings) (old : Text) (L : Nat) (text new : Text) (cursor : Option Int) : Prop where
  closing : Command.closingLine? (Text.lines old) = some L
  lines : Text.lines new = (Text.lines old).take L ++ Text.lines text ++ (Text.lines old).drop L
  redirected : Command.Redirects s → ∃ c : Nat, cursor = some (c : Int) ∧ (Text.lines new)[c]? = some [] ∧
    ∃ brace, (Text.lines new)[c + 1]? = some brace ∧ (Text.lines old)[L]? = some brace
  returned : '\n' ∈ old → Text.FeedsReturned old → Text.FeedsReturned new
  plain : Text.contains ['\r', '\n'] old = false → Text.contains ['\r', '\n'] new = false

/-- The redirect line of generated lines is their last one, which is empty. -/
theorem redirectLine_eq {i : Insertion} {L : Nat} (hline : i.line = L) {T : List Text}
    (hT : Render.Generated i.text T) : ∃ c : Nat, i.redirectLine = c ∧ c + 1 = L + T.length := by
  have hcount : i.text.count '\n' = T.length := by
    rw [hT.text_eq]
    exact Text.count_unlines fun l hl => Text.Unbroken.not_mem (hT.unbroken l hl)
  have hpos : 0 < T.length := List.length_pos_iff.2 hT.insertable.ne_nil
  refine ⟨L + T.length - 1, ?_, by omega⟩
  unfold Insertion.redirectLine
  rw [hline, hcount]
  omega

theorem getElem?_redirect {A C T : List Text} {c : Nat} (hc : c + 1 = A.length + T.length)
    (hlast : T.getLast? = some []) : (A ++ T ++ C)[c]? = some [] ∧ (A ++ T ++ C)[c + 1]? = C[0]? := by
  have hpos : 0 < T.length := by
    rw [List.length_pos_iff]
    intro e
    rw [e] at hlast
    cases hlast
  refine ⟨?_, ?_⟩
  · rw [List.append_assoc, List.getElem?_append_right (by omega), List.getElem?_append_left (by omega), ← hlast,
      List.getLast?_eq_getElem?]
    congr 1
    omega
  · rw [List.getElem?_append_right (by rw [List.length_append]; omega), List.length_append, hc, Nat.sub_self]

/-- What a command saved, once it is known what it put in. -/
theorem saved_of_fits {s : Settings} {f : SourceFile} {opening : Opening} {old : Text} {i : Insertion} {L : Nat}
    {T : List Text} (h : SourceFile.Fits f opening old i L T) {cursor : Option Int}
    (hcursor : Command.Redirects s → cursor = some i.redirectLine) :
    Saved s old L i.text (Text.spliced old L T) cursor := by
  have hlt := SourceFile.lt_of_closingLine? h.closing
  have hinsertable := h.generated.insertable
  have hlines := Text.lines_spliced hlt hinsertable
  refine ⟨h.closing, ?_, ?_, ?_, ?_⟩
  · rw [hlines, h.generated.lines]
  · intro hredirects
    obtain ⟨A, b, B, hcut, hA, -, -⟩ := Command.closingLine?_iff.1 h.closing
    obtain ⟨c, hc, hnext⟩ := redirectLine_eq h.line h.generated
    rw [← hA] at hlines hnext ⊢
    rw [hcut, List.take_left, List.drop_left] at hlines
    obtain ⟨hempty, hbrace⟩ := getElem?_redirect (C := b :: B) hnext h.generated.last
    refine ⟨c, by rw [hcursor hredirects, hc], ?_, b, ?_, ?_⟩
    · rw [hlines, hempty]
    · rw [hlines, hbrace]
      rfl
    · rw [hcut, List.getElem?_append_right (Nat.le_refl _), Nat.sub_self]
      rfl
  · exact Text.feedsReturned_spliced hlt hinsertable
  · exact Text.contains_crlf_spliced hlt hinsertable

/-! ## The two steps -/

section Steps

variable {w : Workspace} {address : Text} {f : SourceFile} {selections : List Int} {s : Settings} {kind : AccessorKind}
  {old : Text}

/-- The document that the open file holds, with cursors on some lines. -/
def opened (address : Text) (f : SourceFile) (selections : List Int) (old : Text) : Document :=
  Document.ofText old selections f.languageId (some (f.path.uri address).codes)

theorem perform_read (hfile : w.file = some f) (hold : f.text w.folder.read = .ok (.ok old)) :
    (w.perform address (.read selections)).after = { w with document := some (opened address f selections old) } := by
  unfold perform
  rw [hfile]
  show (w.readDocument address f selections).after = _
  unfold readDocument
  rw [SourceFile.document_ok hold, ← hfile]
  rfl

theorem perform_run (hfile : w.file = some f) (d : Document) :
    ({ w with document := some d } : Workspace).perform address (.run s kind) =
      ({ w with document := some d } : Workspace).through f (f.run w.folder.read s d kind).trace
        (ofOutcome (f.run w.folder.read s d kind).outcome) := by
  unfold perform
  rw [hfile]
  rfl

theorem answer_run (hfile : w.file = some f) (hold : f.text w.folder.read = .ok (.ok old)) :
    ((w.perform address (.read selections)).after.perform address (.run s kind)).answer =
      ofOutcome (f.run w.folder.read s (opened address f selections old) kind).outcome := by
  rw [perform_read hfile hold, perform_run hfile]
  rfl

/-- Of all events of a command only its insertion writes. -/
theorem folderAfter_changed (hwet : f.dryRun = false) {opening : Opening} {d : Document} {i : Insertion}
    {events : List Event} (h : Command.Changed s d kind (f.reply opening) i events) {e : SourceFile.Edited}
    (he : f.edited opening i = .ok (.ok e)) (folder : Folder) :
    folderAfter folder (events.flatMap (f.outputs opening)) =
      folder.write f.path.text (Utf8.encode e.content) := by
  obtain ⟨before, behind, hevents, hbefore, hbehind, -⟩ := h.once
  have hquiet : ∀ m : List Event, (∀ e ∈ m, e.IsMessage ∨ e = .goTo i.redirectLine) →
      ∀ j, .insert j ∈ m → f.dryRun = true ∨ f.reply opening j ≠ .accepted := by
    intro m hm j hj
    rcases hm _ hj with (⟨n, hn⟩ | ⟨t, ht⟩) | hg
    · cases hn
    · cases ht
    · cases hg
  rw [hevents, List.flatMap_append, List.flatMap_cons, folderAfter_append, folderAfter_append,
    folderAfter_quiet (hquiet before fun e he => .inl (hbefore e he)), folderAfter_insert hwet he,
    folderAfter_quiet (hquiet behind hbehind)]

theorem cursorAfter_changed {d : Document} {editor : Insertion → Reply} {i : Insertion} {events : List Event}
    (h : Command.Changed s d kind editor i events) (hredirects : Command.Redirects s) (earlier : List Event) :
    SourceFile.cursorAfter (earlier ++ events) = some i.redirectLine := by
  obtain ⟨before, behind, hevents, -, -, hlast⟩ := h.once
  apply SourceFile.cursorAfter_getLast
  rw [hevents, List.getLast?_append, List.getLast?_append, List.getLast?_cons, hlast hredirects]
  rfl

theorem outcome_of_changed {x : Except Fault Bool} (h : ofOutcome x = .changed true) : x = .ok true := by
  cases x with
  | ok yes =>
    rw [Answer.changed.inj h]
  | error fault => cases h

/-- A document is read from the open file, and a command on it answers yes: the file was
    saved with what the command put in. -/
theorem run_saves (hfile : w.file = some f) (hwet : f.dryRun = false) (hold : f.text w.folder.read = .ok (.ok old))
    (hyes : ((w.perform address (.read selections)).after.perform address (.run s kind)).answer = .changed true) :
    ∃ (i : Insertion) (L : Nat) (new : Text),
      let done := (w.perform address (.read selections)).after.perform address (.run s kind)
      (Command.build s (opened address f selections old) kind).outcome = .ok (.ok i) ∧ i.line = L ∧
        f.text done.after.folder.read = .ok (.ok new) ∧ Saved s old L i.text new done.after.cursor := by
  rw [answer_run hfile hold] at hyes
  have htrue : (f.run w.folder.read s (opened address f selections old) kind).outcome = .ok true :=
    outcome_of_changed hyes
  rw [perform_read hfile hold, perform_run hfile]
  obtain ⟨i, hchanged⟩ := Command.run_true htrue
  obtain ⟨L, T, hfits⟩ := SourceFile.fits_of_build hold hchanged.built
  obtain ⟨e, he, hcontent⟩ := hfits.edited
  refine ⟨i, L, Text.spliced old L T, hchanged.built, hfits.line, ?_, ?_⟩
  · have hfolder := folderAfter_changed hwet hchanged he w.folder
    rw [hcontent] at hfolder
    show f.text (folderAfter w.folder _).read = _
    rw [← SourceFile.text_write hold (Text.spliced old L T), ← hfolder]
    rfl
  · exact saved_of_fits hfits fun hredirects => cursorAfter_changed hchanged hredirects w.events

end Steps

/-- The sample in the one file of a folder, which is open. -/
def sampleFile : SourceFile := SourceFile.ofPath ['a', '.', 'p', 'h', 'p'] false

def sampleFolder : Workspace :=
  ⟨⟨[([['a', '.', 'p', 'h', 'p']], .file (Utf8.encode sample))], fun _ => .error .missing⟩, some sampleFile, none, []⟩

theorem run_saves_sample : ∃ (i : Insertion) (L : Nat) (new : Text) (cursor : Option Int),
    i.line = L ∧ Saved Settings.defaults sample L i.text new cursor := by
  have hold : sampleFile.text sampleFolder.folder.read = .ok (.ok sample) := by rfl
  have hlanguage : sampleFile.languageId = Command.languageId := by decide +kernel
  obtain ⟨j, hj⟩ := Command.build_sample sampleFile.languageId (some (sampleFile.path.uri []).codes)
  obtain ⟨_, _, hfits⟩ := SourceFile.fits_of_build hold hj
  have htrue : (sampleFile.run sampleFolder.folder.read Settings.defaults (opened [] sampleFile [0] sample)
      .getter).outcome = .ok true :=
    Command.run_of_accepted hlanguage hj hfits.accepted (v := .bool true) rfl
  have hyes : ((sampleFolder.perform [] (.read [0])).after.perform [] (.run Settings.defaults .getter)).answer =
      .changed true := by
    rw [answer_run rfl hold, htrue]
    rfl
  obtain ⟨i, L, new, -, hline, -, hsaved⟩ := run_saves rfl rfl hold hyes
  exact ⟨i, L, new, _, hline, hsaved⟩

end Workspace

end Accessors
