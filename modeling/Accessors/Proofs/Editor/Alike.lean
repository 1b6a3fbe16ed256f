/-
  Accessors.Proofs.Editor.Alike — lines with blanks at their end.

  Lines can be kept with some of their breaks: without those that are carriage returns
  and line feeds, but with the others, all of which are blank (`alike_kept`). A line with
  blanks more at its end says the same:
  - it starts with a closing brace or not (`Alike.closes`), and is the same line of a
    comment (`read_alike`);
  - it declares the same, and what it declares is indented by the same blanks
    (`ofLine?_alike`).
  So everything a command reads of a document is the same for both (`prepare_alike`).
-/
import Accessors.Proofs.Editor.Build
import Accessors.Proofs.Text.Lines

namespace Accessors

/-- The first line is the second with blanks, or nothing, behind it. -/
def Alike (a b : Text) : Prop := ∃ g, (∀ c ∈ g, Text.isBlank c = true) ∧ a = b ++ g

abbrev AlikeLines : List Text → List Text → Prop := List.Forall₂ Alike

/-! ## Lines as they are kept -/

theorem isBlank_of_isBreak {c : Char} (h : Text.isBreak c = true) : Text.isBlank c = true := by
  simp only [Text.isBreak, Text.isBlank, Bool.or_eq_true, Bool.and_eq_true, decide_eq_true_eq, beq_iff_eq] at h ⊢
  omega

theorem alike_kept {l : Text.Line} (hl : l.Proper) : Alike (Text.dropBreak l.text) l.body := by
  have hbody : ∀ c ∈ l.body, (decide (c = '\r') || decide (c = '\n')) = false := by
    intro c hc
    have hn := hl.body c hc
    rw [Bool.or_eq_false_iff, decide_eq_false_iff_not, decide_eq_false_iff_not]
    refine ⟨?_, ?_⟩
    · intro e
      subst e
      exact absurd hn (by decide)
    · intro e
      subst e
      exact absurd hn (by decide)
  have hending : ∀ c ∈ l.ending, Text.isBlank c = true := by
    intro c hc
    rcases hl.ending with he | he | ⟨d, hd, he⟩
    · rw [he] at hc
      cases hc
    · rw [he] at hc
      rcases List.mem_cons.1 hc with rfl | hc
      · decide
      · rw [List.mem_singleton.1 hc]
        decide
    · rw [he, List.mem_singleton] at hc
      subst hc
      exact isBlank_of_isBreak hd
  have hlast : ∀ c ∈ l.body.getLast?, (decide (c = '\r') || decide (c = '\n')) = false :=
    fun c hc => hbody c (List.mem_of_getLast? hc)
  refine ⟨Text.dropBreak l.ending, ?_, Text.dropEndWhile_append hlast _⟩
  intro c hc
  exact hending c ((Text.dropEndWhile_sublist _ _).subset hc)

theorem alikeLines_kept (t : Text) : AlikeLines ((Text.linesKept t).map Text.dropBreak) (Text.lines t) := by
  have hmap : ∀ ls : List Text.Line, (∀ l ∈ ls, l.Proper) →
      AlikeLines ((ls.map Text.Line.text).map Text.dropBreak) (ls.map Text.Line.body) := by
    intro ls hls
    induction ls with
    | nil => exact .nil
    | cons l ls ih => exact .cons (alike_kept (hls l (by simp))) (ih fun m hm => hls m (List.mem_cons_of_mem _ hm))
  exact hmap _ (Text.proper_splitLines t).each

/-! ## What a line says -/

section Line

variable {a b : Text}

theorem Alike.trim (h : Alike a b) : Text.trim a = Text.trim b := by
  obtain ⟨g, hg, rfl⟩ := h
  exact Text.trim_append_blank hg

theorem Alike.indentation (h : Alike a b) (hne : Text.trim b ≠ []) : Text.indentation a = Text.indentation b := by
  obtain ⟨g, -, rfl⟩ := h
  exact Text.indentation_append hne g

/-- A line starts with a closing brace if its text does. -/
theorem closes_trim (t : Text) : Command.closes t = ((Text.trim t).head? == some '\x7d') := by
  have hstart : ∀ u : Text, Text.Flush u → (u.head? == some '\x7d') = ((Text.trimEnd u).head? == some '\x7d') := by
    intro u hu
    cases u with
    | nil => rfl
    | cons c r =>
      rw [Text.trimEnd_cons (Text.flush_cons.1 hu)]
      rfl
  exact hstart _ (Text.flush_dropWhile t)

theorem Alike.closes (h : Alike a b) : Command.closes a = Command.closes b := by
  rw [closes_trim, closes_trim, h.trim]

end Line

/-! ## What the lines of a document say -/

section Lines

variable {as bs : List Text}

theorem commentFrom?_alike (h : AlikeLines as bs) (done : List Text) :
    DocBlock.commentFrom? done as = DocBlock.commentFrom? done bs := by
  induction h generalizing done with
  | nil => rfl
  | cons hl _ ih => simp only [DocBlock.commentFrom?, hl.trim, ih]

theorem read_alike (h : AlikeLines as bs) : DocBlock.read as = DocBlock.read bs := by
  have hcomment : DocBlock.comment? as = DocBlock.comment? bs := by
    have hfrom := commentFrom?_alike h []
    cases h with
    | nil => rfl
    | cons hl _ =>
      unfold DocBlock.comment?
      dsimp only
      rw [hl.trim, hfrom]
  unfold DocBlock.read
  rw [hcomment]

theorem ofLine?_alike (h : AlikeLines as bs) {a b : Text} (hl : Alike a b) :
    Property.ofLine? as a = Property.ofLine? bs b := by
  unfold Property.ofLine?
  simp only [Text.trim_dropBreak, hl.trim, read_alike h]
  by_cases hne : Text.trim b = []
  · rw [hne]
    rfl
  · rw [Text.indentation_dropBreak (by rwa [hl.trim]), Text.indentation_dropBreak hne, hl.indentation hne]

theorem findAbove?_alike (h : AlikeLines as bs) : Property.findAbove? as = Property.findAbove? bs := by
  induction h with
  | nil => rfl
  | cons hl hrest ih =>
    unfold Property.findAbove?
    rw [ofLine?_alike hrest hl, ih, hrest.length_eq]

theorem find?_alike (h : AlikeLines as bs) (cursor : Int) : Property.find? as cursor = Property.find? bs cursor := by
  unfold Property.find?
  rw [h.length_eq]
  exact findAbove?_alike (List.rel_reverse (List.forall₂_take _ h))

theorem closingLine?_alike (h : AlikeLines as bs) : Command.closingLine? as = Command.closingLine? bs := by
  have hfirst : ∀ {xs ys : List Text}, AlikeLines xs ys → xs.findIdx? Command.closes = ys.findIdx? Command.closes := by
    intro xs ys hxy
    induction hxy with
    | nil => rfl
    | cons hl _ ih => rw [List.findIdx?_cons, List.findIdx?_cons, hl.closes, ih]
  unfold Command.closingLine?
  rw [hfirst (List.rel_reverse h), h.length_eq]

/-! ## What a command makes of them -/

theorem renderAll_alike (h : AlikeLines as bs) (s : Settings) (kind : AccessorKind) (cursors : List Int) :
    Command.renderAll s kind as cursors = Command.renderAll s kind bs cursors := by
  have hat : ∀ c, Command.renderAt s kind as c = Command.renderAt s kind bs c := by
    intro c
    unfold Command.renderAt
    rw [find?_alike h]
  induction cursors with
  | nil => rfl
  | cons c cursors ih => simp only [Command.renderAll, hat, ih]

theorem prepare_alike {d e : Document} (h : AlikeLines d.lines e.lines) (hs : d.selections = e.selections)
    (s : Settings) (kind : AccessorKind) : Command.prepare s d kind = Command.prepare s e kind := by
  have horder : d.ordered = e.ordered := by
    unfold Document.ordered
    rw [hs]
  have hbuild : Command.build s d kind = Command.build s e kind := by
    unfold Command.build Command.collect
    rw [renderAll_alike h, horder, closingLine?_alike h]
  unfold Command.prepare
  rw [hbuild]

end Lines

end Accessors
