/-
  Accessors.Proofs.CommandLine.Answer — how a run that generates ends.

  Once there are settings and a document the command is worked through, and the run ends
  with zero or one, unless there are more spaces to write than can be held
  (`generateIn_finished`). Without one of them it comes to no command (`generate_cases`).
  A run that ends with one has shown an error, whatever stood in its way
  (`generate_told`). A file that cannot be opened is reported, and the run ends with one.
  Nobody foresees a file that is opened and holds no text, nor a path with a null
  character in it: there the run stops, with nothing shown.
  - `generate_finishes_iff`: under the default settings these are all the ways to end.
-/
import Accessors.CommandLine.Program
import Accessors.Proofs.Editor.Answer
import Accessors.Proofs.Editor.Splice

namespace Accessors.CommandLine

/-! ## With a document -/

section Document

variable {opening : Opening} {path : Text} {f : SourceFile} {s : Settings} {d : Document} {kind : AccessorKind}

theorem generateIn_stopped {fault : Fault} (h : (f.run opening s d kind).outcome = .error fault) :
    Run.generateIn opening path f s d kind =
      ⟨(f.run opening s d kind).trace.flatMap (f.outputs opening), .stopped fault⟩ := by
  unfold Run.generateIn
  dsimp only
  rw [h]

theorem generateIn_answered {yes : Bool} (h : (f.run opening s d kind).outcome = .ok yes) :
    Run.generateIn opening path f s d kind =
      ⟨(f.run opening s d kind).trace.flatMap (f.outputs opening) ++
          goingOn path f.dryRun yes (SourceFile.cursorAfter (f.run opening s d kind).trace),
        .finished (if yes && (SourceFile.errorsOf (f.run opening s d kind).trace).isEmpty then 0 else 1)⟩ := by
  unfold Run.generateIn
  dsimp only
  rw [h]

/-- A command whose insertion the file takes does not stop unless there are more spaces to
    write than can be held. -/
theorem run_stopped (hreply : ∀ i, (Command.build s d kind).outcome = .ok (.ok i) → f.reply opening i = .accepted)
    {fault : Fault} (h : (f.run opening s d kind).outcome = .error fault) : Command.Overfull s d kind :=
  ((Command.run_eq_error fun i hi _ hbroken => by cases (hreply i hi).symm.trans hbroken).1 h).2

theorem generateIn_finished
    (hreply : ∀ i, (Command.build s d kind).outcome = .ok (.ok i) → f.reply opening i = .accepted)
    (hfits : ¬Command.Overfull s d kind) : ∃ code ≤ 1,
    (Run.generateIn opening path f s d kind).ending = .finished code := by
  cases hstep : (f.run opening s d kind).outcome with
  | error fault => exact absurd (run_stopped hreply hstep) hfits
  | ok yes =>
    rw [generateIn_answered hstep]
    refine ⟨_, ?_, rfl⟩
    split <;> omega

theorem mem_errorsOf {events : List Event} {t : Text} : t ∈ SourceFile.errorsOf events ↔ .error t ∈ events := by
  unfold SourceFile.errorsOf
  rw [List.mem_filterMap]
  constructor
  · rintro ⟨e, he, h⟩
    cases e with
    | error u =>
      rw [← Option.some.inj h]
      exact he
    | notice _ | info _ | insert _ | goTo _ => cases h
  · intro h
    exact ⟨_, h, rfl⟩

theorem generateIn_told (h : (Run.generateIn opening path f s d kind).ending = .finished 1) :
    ∃ t, .err t ∈ (Run.generateIn opening path f s d kind).outputs := by
  cases hstep : (f.run opening s d kind).outcome with
  | error fault =>
    rw [generateIn_stopped hstep] at h
    cases h
  | ok yes =>
    have htold : ∃ t, .error t ∈ (f.run opening s d kind).trace := by
      cases yes with
      | false => exact Command.run_false_told hstep
      | true =>
        rw [generateIn_answered hstep] at h
        cases herrors : SourceFile.errorsOf (f.run opening s d kind).trace with
        | nil =>
          rw [herrors] at h
          cases h
        | cons t rest => exact ⟨t, mem_errorsOf.1 (herrors ▸ List.mem_cons_self)⟩
    obtain ⟨t, ht⟩ := htold
    rw [generateIn_answered hstep]
    exact ⟨SourceFile.line t, List.mem_append_left _ (List.mem_flatMap.2 ⟨_, ht, List.mem_singleton_self _⟩)⟩

end Document

/-! ## Up to the command -/

section Request

variable (bounds : Value.Bounds) (opening : Opening) (folder path : Text) (lines : List (Option Int))
  (kind : Option AccessorKind) (config : Option Text)

/-- The command that a run comes to. -/
structure Commands (s : Settings) (d : Document) (k : AccessorKind) : Prop where
  settings : configurationOf bounds opening config = .ok (.ok s)
  document : documentOf opening folder (SourceFile.ofPath path false) lines = .ok (.ok d)
  kind : kind = some k

/-- A run that comes to none. -/
inductive Halted : Run → Prop where
  | stopped (fault : Fault) : Halted ⟨[], .stopped fault⟩
  | failing (reason : Text) : Halted (.failing reason)

/-- A run comes to no command, or it is that of the command; which one does not depend on
    whether it is dry. -/
theorem generate_cases :
    (∃ run, (∀ dryRun, Run.generate bounds opening folder path lines kind config dryRun = run) ∧ Halted run ∧
      ∀ s d k, ¬Commands bounds opening folder path lines kind config s d k) ∨
    ∃ s d k, Commands bounds opening folder path lines kind config s d k ∧ ∀ dryRun,
      Run.generate bounds opening folder path lines kind config dryRun =
        .generateIn opening path (SourceFile.ofPath path dryRun) s d k := by
  have hdocument : ∀ dryRun, documentOf opening folder (SourceFile.ofPath path dryRun) lines =
      documentOf opening folder (SourceFile.ofPath path false) lines := fun _ => rfl
  unfold Run.generate
  simp only [hdocument]
  cases hs : configurationOf bounds opening config with
  | error fault => exact .inl ⟨_, fun _ => rfl, .stopped fault, fun s d k h => by cases hs.symm.trans h.settings⟩
  | ok r =>
    cases r with
    | error reason => exact .inl ⟨_, fun _ => rfl, .failing reason, fun s d k h => by cases hs.symm.trans h.settings⟩
    | ok s =>
      cases hd : documentOf opening folder (SourceFile.ofPath path false) lines with
      | error fault => exact .inl ⟨_, fun _ => rfl, .stopped fault, fun s d k h => by cases hd.symm.trans h.document⟩
      | ok r =>
        cases r with
        | error reason =>
          exact .inl ⟨_, fun _ => rfl, .failing reason, fun s d k h => by cases hd.symm.trans h.document⟩
        | ok d =>
          cases kind with
          | none => exact .inl ⟨_, fun _ => rfl, .stopped .kindWithoutName, fun s d k h => by cases h.kind⟩
          | some k => exact .inr ⟨s, d, k, ⟨hs, hd, rfl⟩, fun _ => rfl⟩

variable {bounds opening folder path lines kind config}

theorem Commands.unique {s t : Settings} {d e : Document} {j k : AccessorKind}
    (h : Commands bounds opening folder path lines kind config s d j)
    (h' : Commands bounds opening folder path lines kind config t e k) : t = s ∧ e = d ∧ k = j :=
  ⟨Except.ok.inj (Except.ok.inj (h'.settings.symm.trans h.settings)),
    Except.ok.inj (Except.ok.inj (h'.document.symm.trans h.document)), Option.some.inj (h'.kind.symm.trans h.kind)⟩

/-- A run that ends with one has shown an error. -/
theorem generate_told {dryRun : Bool}
    (h : (Run.generate bounds opening folder path lines kind config dryRun).ending = .finished 1) :
    ∃ t, .err t ∈ (Run.generate bounds opening folder path lines kind config dryRun).outputs := by
  rcases generate_cases bounds opening folder path lines kind config with
    ⟨run, hrun, hhalted, -⟩ | ⟨s, d, k, -, hrun⟩
  · rw [hrun dryRun] at h ⊢
    cases hhalted with
    | stopped fault => cases h
    | failing reason => exact ⟨_, List.mem_singleton_self _⟩
  · rw [hrun dryRun] at h ⊢
    exact generateIn_told h

end Request

/-! ## Under the default settings -/

section Defaults

variable {bounds : Value.Bounds} {opening : Opening} {folder path : Text} {lines : List Int} {kind : AccessorKind}
  {dryRun : Bool}

theorem documentOf_map_some (file : SourceFile) (lines : List Int) :
    documentOf opening folder file (lines.map some) = file.document opening folder (lines.map (· - 1)) := by
  have hlines : (lines.map some).mapM id = some lines := by
    rw [List.mapM_map]
    exact (List.mapM_pure (m := Option) (l := lines) (f := id)).trans (congrArg some (List.map_id lines))
  unfold documentOf
  rw [hlines]

/-- The run under the default settings, by what the file gives as its text. -/
theorem generate_eq : Run.generate bounds opening folder path (lines.map some) (some kind) none dryRun =
    match (SourceFile.ofPath path dryRun).text opening with
    | .error fault => ⟨[], .stopped fault⟩
    | .ok (.error reason) => .failing reason
    | .ok (.ok t) => .generateIn opening path (SourceFile.ofPath path dryRun) Settings.defaults
        (Document.ofText t (lines.map (· - 1)) (SourceFile.ofPath path dryRun).languageId
          (some ((SourceFile.ofPath path dryRun).path.uri folder).codes)) kind := by
  unfold Run.generate configurationOf
  dsimp only
  rw [documentOf_map_some]
  unfold SourceFile.document
  cases (SourceFile.ofPath path dryRun).text opening with
  | error fault => rfl
  | ok r => cases r <;> rfl

theorem generate_unreadable {e : DiskFault} (hclear : '\x00' ∉ (Path.ofText path).text)
    (h : opening (Path.ofText path).text = .error e) :
    Run.generate bounds opening folder path (lines.map some) (some kind) none dryRun =
      .failing ("Could not read ".toList ++
      (Path.ofText path).text ++ ": ".toList ++ e.message (Path.ofText path).text) := by
  rw [generate_eq, SourceFile.text_unreadable hclear h]
  rfl

theorem generate_undecodable {bytes : Bytes} (hclear : '\x00' ∉ (Path.ofText path).text)
    (h : opening (Path.ofText path).text = .ok bytes) (hbytes : ∀ t, bytes ≠ Utf8.encode t) : ∃ fault,
      Run.generate bounds opening folder path (lines.map some) (some kind) none dryRun =
        ⟨[], .stopped (.undecodable fault)⟩ := by
  obtain ⟨fault, hfault⟩ := SourceFile.text_undecodable (f := SourceFile.ofPath path dryRun) hclear h hbytes
  refine ⟨fault, ?_⟩
  rw [generate_eq, hfault]

theorem generate_null (h : '\x00' ∈ (Path.ofText path).text) :
    Run.generate bounds opening folder path (lines.map some) (some kind) none dryRun = ⟨[], .stopped .nullInPath⟩ := by
  rw [generate_eq, SourceFile.text_null h]

theorem generate_encoded {t : Text} (hclear : '\x00' ∉ (Path.ofText path).text)
    (h : opening (Path.ofText path).text = .ok (Utf8.encode t)) : ∃ code ≤ 1,
      (Run.generate bounds opening folder path (lines.map some) (some kind) none dryRun).ending = .finished code := by
  have htext : (SourceFile.ofPath path dryRun).text opening = .ok (.ok t) := SourceFile.text_encoded hclear h
  rw [generate_eq, htext]
  exact generateIn_finished (fun _ hi => SourceFile.reply_built htext hi)
    fun hfull => Command.not_spaceable_iff.2 hfull.count (Render.spaceable_defaults kind)

/-- Under the default settings, for any lines and any kind, a run ends with zero or one if
    and only if its path has no null character and the file, if it can be opened, holds
    text; with one it has shown an error, and that is how it ends if the file cannot be
    opened. Else it stops, and nothing is shown. -/
theorem generate_finishes_iff (bounds : Value.Bounds) (opening : Opening) (folder path : Text) (lines : List Int)
    (kind : AccessorKind) (dryRun : Bool) :
    let target := (Path.ofText path).text
    let run := Run.generate bounds opening folder path (lines.map some) (some kind) none dryRun
    ((∃ code ≤ 1, run.ending = .finished code) ↔
      '\x00' ∉ target ∧ ∀ bytes, opening target = .ok bytes → ∃ t, bytes = Utf8.encode t) ∧
    (run.ending = .finished 1 → ∃ t, .err t ∈ run.outputs) ∧
    ('\x00' ∉ target → ∀ e, opening target = .error e →
      run = .failing ("Could not read ".toList ++ target ++ ": ".toList ++ e.message target)) ∧
    ('\x00' ∉ target → ∀ bytes, opening target = .ok bytes → (∀ t, bytes ≠ Utf8.encode t) →
      ∃ fault, run = ⟨[], .stopped (.undecodable fault)⟩) ∧
    ('\x00' ∈ target → run = ⟨[], .stopped .nullInPath⟩) := by
  intro target run
  refine ⟨⟨?_, ?_⟩, generate_told, fun hclear _ => generate_unreadable hclear,
    fun hclear _ => generate_undecodable hclear, generate_null⟩
  · rintro ⟨code, -, hcode⟩
    have hclear : '\x00' ∉ target := by
      intro h
      rw [show run = _ from generate_null h] at hcode
      cases hcode
    refine ⟨hclear, fun bytes hread => ?_⟩
    by_contra hbytes
    obtain ⟨fault, hfault⟩ : ∃ fault, run = ⟨[], .stopped (.undecodable fault)⟩ :=
      generate_undecodable hclear hread fun t ht => hbytes ⟨t, ht⟩
    rw [hfault] at hcode
    cases hcode
  · rintro ⟨hclear, htext⟩
    cases hread : opening target with
    | error e => exact ⟨1, Nat.le_refl 1, congrArg Run.ending (generate_unreadable hclear hread)⟩
    | ok bytes =>
      obtain ⟨t, rfl⟩ := htext bytes hread
      exact generate_encoded hclear hread

/-- So a run stops at a byte that no text begins with. -/
theorem generate_stops : ¬∃ code ≤ 1, (Run.generate ⟨1, 0⟩ (fun _ => .ok [0xff]) [] ['a', '.', 'p', 'h', 'p'] [some 1]
    (some .both) none false).ending = .finished code := by
  rintro ⟨code, -, hcode⟩
  cases hcode

end Defaults

end Accessors.CommandLine
