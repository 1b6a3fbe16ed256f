/-
  Accessors.Proofs.Editor.Transparency — insertions do not disturb each other.

  The lines of an insertion go before the line that closes the document. They declare
  nothing, and what is documented below that line is not looked for above it, so that no
  declaration is gained, lost or read differently (`Transparent`).

  Orders are worked through one after the other, each on the lines that the one before it
  left (`Run`). One order puts its lines behind those already put in, and is answered as
  it would have been on the first document, with its cursors moved back there
  (`answer_origin`); so is each order of a run, by induction (`Run.transparent`).
  - `build_transparent`: both, for every document of a text.
-/
import Accessors.Proofs.Editor.Build

namespace Accessors

open Text (Unbroken)

/-! ## Insertions as lines -/

/-- The lines of the text, which has a line feed behind each. -/
def Insertion.lines (i : Insertion) : List Text := (Text.splitOn '\n' i.text).dropLast

def Insertion.into (i : Insertion) (lines : List Text) : List Text :=
  lines.take i.line.toNat ++ i.lines ++ lines.drop i.line.toNat

theorem Render.Generated.lines_eq {i : Insertion} {T : List Text} (h : Render.Generated i.text T) : i.lines = T := by
  unfold Insertion.lines
  rw [h.splitOn, List.dropLast_concat]

theorem Insertion.into_cut {i : Insertion} {A C : List Text} (h : i.line = (A.length : Nat)) :
    i.into (A ++ C) = A ++ i.lines ++ C := by
  have hline : i.line.toNat = A.length := by rw [h, Int.toNat_natCast]
  unfold Insertion.into
  rw [hline, List.take_left, List.drop_left]

/-- What an insertion before line `L` leaves as it was, and what it adds. -/
structure Transparent (old : List Text) (L : Nat) (i : Insertion) : Prop where
  line : i.line = L
  closed : Text.splitOn '\n' i.text = i.lines ++ [[]]
  closing : Command.closingLine? (i.into old) = some (L + i.lines.length)
  inert : ∀ l ∈ i.lines, Inert l
  above : ∀ j : Int, 0 ≤ j → j < L → Property.find? (i.into old) j = Property.find? old j
  inside : ∀ k < i.lines.length,
    Property.at? (i.into old) (L + k) = if L = 0 then none else Property.at? old (L - 1)
  below : ∀ j : Int, L ≤ j → j < old.length → Property.at? (i.into old) (j + i.lines.length) = Property.at? old j

theorem transparent_of_generated {A B : List Text} {b : Text} (hb : StartsWithBrace b)
    (hB : ∀ l ∈ B, ¬StartsWithBrace l) {i : Insertion} (hi : i.line = (A.length : Nat)) {T : List Text}
    (hT : Render.Generated i.text T) : Transparent (A ++ b :: B) A.length i := by
  have hlines := hT.lines_eq
  have hinto : i.into (A ++ b :: B) = A ++ T ++ b :: B := by rw [Insertion.into_cut hi, hlines]
  refine ⟨hi, ?_, ?_, ?_, ?_, ?_, ?_⟩
  · rw [hT.splitOn, hlines]
  · rw [hinto, Command.closingLine?_cut hb hB, hlines, List.length_append]
  · rw [hlines]
    exact hT.inert
  · intro j h₁ h₂
    rw [hinto, List.append_assoc, Property.find?_before (by omega)]
  · intro k hk
    rw [hlines] at hk
    have ho : Property.origin A.length T.length (A.length + k) = (A.length : Int) - 1 := by
      unfold Property.origin
      split <;> omega
    rw [hinto, Property.at?_origin hb hT.inert, ho]
    split
    · rename_i hA
      rw [List.length_eq_zero_iff] at hA
      subst hA
      exact Property.at?_top hb (by simp)
    · rfl
  · intro j h₁ _
    have ho : Property.origin A.length T.length (j + T.length) = j := by
      unfold Property.origin
      split <;> omega
    rw [hinto, hlines, Property.at?_origin hb hT.inert, ho]

/-! ## Runs -/

/-- A command as it is given: all but the lines of its document. -/
structure Order where
  settings : Settings
  kind : AccessorKind
  languageId : Text
  cursors : List Int
  uri : Option Codes

namespace Order

def document (o : Order) (lines : List Text) : Document := ⟨lines, o.languageId, o.cursors, o.uri⟩

/-- What comes of the order on a document with these lines. -/
def answer (o : Order) (lines : List Text) : Except Fault (Except Obstacle Insertion) :=
  (Command.build o.settings (o.document lines) o.kind).outcome

/-- The order with its cursors elsewhere. -/
def moved (o : Order) (f : Int → Int) : Order := { o with cursors := o.cursors.map f }

end Order

/-- From the first lines to the last ones, each order with the insertion that it made. -/
inductive Run : List Text → List (Order × Insertion) → List Text → Prop
  | nil (lines : List Text) : Run lines [] lines
  | cons {lines new : List Text} {o : Order} {i : Insertion} {steps : List (Order × Insertion)} :
      o.answer lines = .ok (.ok i) → Run (i.into lines) steps new → Run lines ((o, i) :: steps) new

/-- The lines that were put in, the first ones first. -/
def inserted (steps : List (Order × Insertion)) : List Text := steps.flatMap fun step => step.2.lines

section Steps

variable {A B S : List Text} {b : Text}

/-- With lines put in already, an order is answered as it would be without them. -/
theorem answer_origin (hb : StartsWithBrace b) (hB : ∀ l ∈ B, ¬StartsWithBrace l) (hS : ∀ l ∈ S, Inert l)
    {o : Order} {i : Insertion} (h : o.answer (A ++ S ++ b :: B) = .ok (.ok i)) :
    i.line = (A ++ S).length ∧
      (o.moved (Property.origin A.length S.length)).answer (A ++ b :: B) = .ok (.ok ⟨A.length, i.text⟩) := by
  obtain ⟨L, hL, hline, hne, ht⟩ := Command.build_iff.1 h
  have hnew : Command.closingLine? (A ++ S ++ b :: B) = some (A ++ S).length := Command.closingLine?_cut hb hB
  obtain rfl : (A ++ S).length = L := Option.some.inj (hnew.symm.trans hL)
  refine ⟨hline, Command.build_iff.2 ⟨A.length, Command.closingLine?_cut hb hB, rfl, hne, ?_⟩⟩
  have horder : ((o.moved (Property.origin A.length S.length)).document (A ++ b :: B)).ordered =
      (o.document (A ++ S ++ b :: B)).ordered.map (Property.origin A.length S.length) :=
    Document.ordered_map (fun _ _ => Property.origin_mono _ _) rfl
  unfold Command.collect at ht ⊢
  rw [horder, ← ht]
  exact (Command.renderAll_congr _ _ fun c _ => Property.at?_origin hb hS c).symm

theorem Run.transparent (hb : StartsWithBrace b) (hB : ∀ l ∈ B, ¬StartsWithBrace l)
    (hold : ∀ l ∈ A ++ b :: B, Unbroken l) (hS : ∀ l ∈ S, Inert l ∧ Unbroken l) {new : List Text}
    {steps : List (Order × Insertion)} (h : Run (A ++ S ++ b :: B) steps new) :
    new = A ++ (S ++ inserted steps) ++ b :: B ∧ ∀ before o i after, steps = before ++ (o, i) :: after →
      (o.moved (Property.origin A.length (S ++ inserted before).length)).answer (A ++ b :: B) =
        .ok (.ok ⟨A.length, i.text⟩) := by
  induction steps generalizing S with
  | nil =>
    cases h
    refine ⟨by simp [inserted], ?_⟩
    intro before o i after hcut
    simp at hcut
  | cons step steps ih =>
    cases h with
    | cons hanswer hrun =>
      rename_i o i
      have hlines : ∀ l ∈ A ++ S ++ b :: B, Unbroken l := by
        intro l hl
        rcases List.mem_append.1 hl with hl | hl
        · rcases List.mem_append.1 hl with hl | hl
          · exact hold l (List.mem_append_left _ hl)
          · exact (hS l hl).2
        · exact hold l (List.mem_append_right _ hl)
      obtain ⟨hline, hfirst⟩ := answer_origin hb hB (fun l hl => (hS l hl).1) hanswer
      obtain ⟨-, -, -, T, -, -, -, -, hT⟩ := Command.build_ok hlines hanswer
      have hinto : i.into (A ++ S ++ b :: B) = A ++ (S ++ i.lines) ++ b :: B := by
        rw [Insertion.into_cut hline, List.append_assoc A]
      have hS' : ∀ l ∈ S ++ i.lines, Inert l ∧ Unbroken l := by
        intro l hl
        rw [hT.lines_eq] at hl
        rcases List.mem_append.1 hl with hl | hl
        · exact hS l hl
        · exact ⟨hT.inert l hl, hT.unbroken l hl⟩
      rw [hinto] at hrun
      obtain ⟨hnew, hlater⟩ := ih hS' hrun
      refine ⟨?_, ?_⟩
      · rw [hnew]
        simp [inserted]
      · intro before o' i' after hcut
        cases before with
        | nil =>
          obtain ⟨hstep, -⟩ := List.cons.inj hcut
          cases hstep
          simpa [inserted] using hfirst
        | cons first before =>
          obtain ⟨rfl, hrest⟩ := List.cons.inj hcut
          have hthen := hlater before o' i' after hrest
          simpa [inserted] using hthen

end Steps

/-- For every document of a text on which a command comes to an insertion: the insertion
    is transparent, and after any run the lines put in stand one behind the other before
    the closing line, each order having made what it would have made on the first document. -/
theorem build_transparent {text languageId : Text} {selections : List Int} {uri : Option Codes} {s : Settings}
    {kind : AccessorKind} {i : Insertion}
    (h : (Command.build s (Document.ofText text selections languageId uri) kind).outcome = .ok (.ok i)) :
    ∃ L : Nat, Command.closingLine? (Text.lines text) = some L ∧ Transparent (Text.lines text) L i ∧
      ∀ steps new, Run (Text.lines text) steps new →
        new = (Text.lines text).take L ++ inserted steps ++ (Text.lines text).drop L ∧
        ∀ before o j after, steps = before ++ (o, j) :: after →
          (o.moved (Property.origin L (inserted before).length)).answer (Text.lines text) =
            .ok (.ok ⟨L, j.text⟩) := by
  have hold : ∀ l ∈ Text.lines text, Unbroken l := fun _ hl => Text.unbroken_of_mem_lines hl
  obtain ⟨A, b, B, T, hlines, hi, hb, hB, hT⟩ := Command.build_ok hold h
  replace hlines : Text.lines text = A ++ b :: B := hlines
  rw [hlines] at hold ⊢
  refine ⟨A.length, Command.closingLine?_cut hb hB, transparent_of_generated hb hB hi hT, ?_⟩
  intro steps new hrun
  have hrun' : Run (A ++ [] ++ b :: B) steps new := by rwa [List.append_nil]
  obtain ⟨hnew, hsteps⟩ := Run.transparent hb hB hold (by simp) hrun'
  rw [List.take_left, List.drop_left]
  exact ⟨hnew, hsteps⟩

/-- An order for the getter of the first line. -/
def sampleOrder : Order := ⟨Settings.defaults, .getter, Command.languageId, [0], none⟩

/-- Two orders, the second one on the lines that the first one left. -/
theorem build_transparent_sample : ∃ (i j : Insertion) (L : Nat) (new : List Text),
    Transparent (Text.lines sample) L i ∧ Run (Text.lines sample) [(sampleOrder, i), (sampleOrder, j)] new ∧
      new = (Text.lines sample).take L ++ inserted [(sampleOrder, i), (sampleOrder, j)] ++
        (Text.lines sample).drop L ∧
      (sampleOrder.moved (Property.origin L (inserted [(sampleOrder, i)]).length)).answer (Text.lines sample) =
        .ok (.ok ⟨L, j.text⟩) := by
  obtain ⟨i, hi⟩ := Command.build_sample Command.languageId none
  obtain ⟨L, hL, htransparent, hruns⟩ := build_transparent hi
  obtain rfl : 1 = L := Option.some.inj ((show Command.closingLine? (Text.lines sample) = some 1 by decide).symm.trans hL)
  -- The first line is found again below the insertion, whose lines are whole ones.
  have hlines : ∀ l ∈ i.into (Text.lines sample), Unbroken l := by
    have hold : ∀ l ∈ Text.lines sample, Unbroken l := fun _ hl => Text.unbroken_of_mem_lines hl
    obtain ⟨-, -, -, T, -, -, -, -, hT⟩ := Command.build_ok hold hi
    intro l hl
    unfold Insertion.into at hl
    rw [hT.lines_eq] at hl
    rcases List.mem_append.1 hl with hl | hl
    · rcases List.mem_append.1 hl with hl | hl
      · exact hold l (List.mem_of_mem_take hl)
      · exact hT.unbroken l hl
    · exact hold l (List.mem_of_mem_drop hl)
  obtain ⟨f, hf⟩ : ∃ f, Property.find? (Text.lines sample) 0 = some f :=
    Option.isSome_iff_exists.1 (by decide +kernel)
  have hfound : Property.find? (i.into (Text.lines sample)) 0 = some f :=
    (htransparent.above 0 (by decide) (by decide)).trans hf
  have hbuilt := @Command.build_found Settings.defaults (sampleOrder.document (i.into (Text.lines sample))) .getter
  obtain ⟨j, hj, -⟩ := hbuilt (by decide) hlines List.mem_cons_self hfound htransparent.closing
  have hrun : Run (Text.lines sample) [(sampleOrder, i), (sampleOrder, j)] (j.into (i.into (Text.lines sample))) :=
    .cons hi (.cons hj (.nil _))
  obtain ⟨hnew, hsteps⟩ := hruns _ _ hrun
  exact ⟨i, j, 1, _, htransparent, hrun, hnew, hsteps [(sampleOrder, i)] sampleOrder j [] rfl⟩

end Accessors
