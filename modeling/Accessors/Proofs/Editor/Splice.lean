/-
  Accessors.Proofs.Editor.Splice — what an insertion makes of the text of a file.

  The text is seen as its lines with their breaks. The lines that go in end in the break
  of the text: a line feed, with a carriage return before it if the text has such a break
  anywhere. With them the lines are still those of one text (`proper_spliced`): the line
  before them has a break, and none that could join theirs, since the first of them is not
  empty. So the lines of the new text are the old ones with the new ones in between
  (`lines_spliced`), and its breaks are the old ones and this one (`feedsReturned_spliced`,
  `contains_crlf_spliced`). What was built on a text goes into the file that still has it
  (`reply_built`).
-/
import Accessors.Proofs.Editor.Build
import Accessors.Proofs.Editor.SourceFile
import Accessors.Proofs.Text.Lines

namespace Accessors.Text

/-- The break that lines put into a text end in. -/
def breakOf (t : Text) : Text := if contains ['\r', '\n'] t then ['\r', '\n'] else ['\n']

theorem breakOf_cases (t : Text) :
    (contains ['\r', '\n'] t = true ∧ breakOf t = ['\r', '\n']) ∨
      (contains ['\r', '\n'] t = false ∧ breakOf t = ['\n']) := by
  unfold breakOf
  cases contains ['\r', '\n'] t with
  | true => exact .inl ⟨rfl, rfl⟩
  | false => exact .inr ⟨rfl, rfl⟩

def ended (ending : Text) (T : List Text) : List Line := T.map fun l => ⟨l, ending⟩

theorem flatMap_ended (ending : Text) (T : List Text) :
    (ended ending T).flatMap Line.text = T.flatMap (· ++ ending) := by
  unfold ended
  rw [List.flatMap_map]
  rfl

theorem bodies_ended (ending : Text) (T : List Text) : (ended ending T).map Line.body = T := by
  unfold ended
  rw [List.map_map]
  exact List.map_id T

section Feed

variable {T : List Text} {ending : Text}

theorem follows_of_feed (he : ending = ['\n'] ∨ ending = ['\r', '\n']) (b : Text) (m : Line) :
    Line.Follows ⟨b, ending⟩ m := by
  rcases he with rfl | rfl
  · exact ⟨by simp, by simp⟩
  · exact ⟨by simp, by simp⟩

theorem proper_ended (he : ending = ['\n'] ∨ ending = ['\r', '\n']) (hT : ∀ l ∈ T, Unbroken l) :
    Proper (ended ending T) := by
  refine ⟨?_, ?_⟩
  · intro l hl
    obtain ⟨b, hb, rfl⟩ := List.mem_map.1 hl
    refine ⟨hT b hb, ?_, ?_⟩
    · rcases he with rfl | rfl
      · exact .inr (.inr ⟨'\n', by decide, rfl⟩)
      · exact .inr (.inl rfl)
    · intro hn
      rcases he with rfl | rfl <;> cases hn
  · induction T with
    | nil => exact List.isChain_nil
    | cons l T ih =>
      refine List.isChain_cons.2 ⟨fun m _ => follows_of_feed he l m, ?_⟩
      exact ih fun m hm => hT m (List.mem_cons_of_mem _ hm)

/-- Lines cut in two, with others in between. -/
theorem proper_between {a b : List Line} (hab : Proper (a ++ b)) (hb : b ≠ [])
    (he : ending = ['\n'] ∨ ending = ['\r', '\n']) (hT : ∀ l ∈ T, Unbroken l) (hne : T ≠ [])
    (hfirst : ∀ l ∈ T.head?, l ≠ []) : Proper (a ++ ended ending T ++ b) := by
  obtain ⟨ha, hb', hseam⟩ := proper_append.1 hab
  obtain ⟨m, b, rfl⟩ := List.exists_cons_of_ne_nil hb
  refine proper_append.2 ⟨proper_append.2 ⟨ha, proper_ended he hT, ?_⟩, hb', ?_⟩
  · intro l hl k hk
    refine ⟨(hseam l hl m rfl).1, ?_⟩
    intro hparted
    obtain ⟨-, hbody, -⟩ := hparted
    unfold ended at hk
    rw [List.head?_map, Option.mem_def, Option.map_eq_some_iff] at hk
    obtain ⟨t, ht, rfl⟩ := hk
    exact hfirst t ht hbody
  · intro l hl k _
    have hne' : ended ending T ≠ [] := by simpa [ended] using hne
    rw [List.getLast?_append_of_ne_nil _ hne'] at hl
    obtain ⟨t, -, rfl⟩ := List.mem_map.1 (List.mem_of_getLast? hl)
    exact follows_of_feed he t k

end Feed

/-! ## Lines in the text of a file -/

section Spliced

/-- The text with lines put before its line `L`. -/
def spliced (old : Text) (L : Nat) (T : List Text) : Text :=
  ((splitLines old).take L ++ ended (breakOf old) T ++ (splitLines old).drop L).flatMap Line.text

variable {old : Text} {L : Nat} {T : List Text}

theorem breakOf_feed (old : Text) : breakOf old = ['\n'] ∨ breakOf old = ['\r', '\n'] := by
  rcases breakOf_cases old with ⟨-, h⟩ | ⟨-, h⟩
  · exact .inr h
  · exact .inl h

/-- Lines that can be put into a text. -/
structure Insertable (T : List Text) : Prop where
  unbroken : ∀ l ∈ T, Unbroken l
  ne_nil : T ≠ []
  first : ∀ l ∈ T.head?, l ≠ []

theorem proper_spliced (hL : L < (splitLines old).length) (hT : Insertable T) :
    Proper ((splitLines old).take L ++ ended (breakOf old) T ++ (splitLines old).drop L) := by
  have hold : Proper ((splitLines old).take L ++ (splitLines old).drop L) := by
    rw [List.take_append_drop]
    exact proper_splitLines old
  have hne : (splitLines old).drop L ≠ [] := by simpa using hL
  exact proper_between hold hne (breakOf_feed old) hT.unbroken hT.ne_nil hT.first

theorem splitLines_spliced (hL : L < (splitLines old).length) (hT : Insertable T) :
    splitLines (spliced old L T) =
      (splitLines old).take L ++ ended (breakOf old) T ++ (splitLines old).drop L :=
  splitLines_flatMap (proper_spliced hL hT)

theorem lines_spliced (hL : L < (splitLines old).length) (hT : Insertable T) :
    lines (spliced old L T) = (lines old).take L ++ T ++ (lines old).drop L := by
  unfold lines
  rw [splitLines_spliced hL hT, List.map_append, List.map_append, bodies_ended, List.map_take, List.map_drop]

theorem mem_spliced {l : Line}
    (h : l ∈ (splitLines old).take L ++ ended (breakOf old) T ++ (splitLines old).drop L) :
    l ∈ splitLines old ∨ l.ending = breakOf old := by
  rcases List.mem_append.1 h with h | h
  · rcases List.mem_append.1 h with h | h
    · exact .inl (List.mem_of_mem_take h)
    · obtain ⟨t, -, rfl⟩ := List.mem_map.1 h
      exact .inr rfl
  · exact .inl (List.mem_of_mem_drop h)

/-- A line feed behind a carriage return is a break of that kind. -/
theorem contains_crlf_of_feed {t : Text} (hn : '\n' ∈ t) (h : FeedsReturned t) : contains ['\r', '\n'] t = true := by
  rw [contains_crlf_iff]
  have hproper := proper_splitLines t
  have hendings := endings_of_feedsReturned hproper (by rwa [flatMap_splitLines])
  rw [← flatMap_splitLines t] at hn
  obtain ⟨l, hl, hn⟩ := List.mem_flatMap.1 hn
  refine ⟨l, hl, ?_⟩
  have hl' := hproper.each l hl
  rcases List.mem_append.1 hn with hn | hn
  · exact absurd (hl'.body '\n' hn) (by decide)
  · rcases hl'.ending with he | he | ⟨c, -, he⟩
    · rw [he] at hn
      cases hn
    · exact he
    · rw [he] at hn
      rw [← List.mem_singleton.1 hn] at he
      exact absurd he (hendings l hl)

theorem feedsReturned_spliced (hL : L < (splitLines old).length) (hT : Insertable T) (hn : '\n' ∈ old)
    (h : FeedsReturned old) : FeedsReturned (spliced old L T) := by
  have hproper := proper_spliced hL hT
  have hbreak : breakOf old = ['\r', '\n'] := if_pos (contains_crlf_of_feed hn h)
  have hendings := endings_of_feedsReturned (proper_splitLines old) (by rwa [flatMap_splitLines])
  apply feedsReturned_of_endings hproper.each
  intro l hl
  rcases mem_spliced hl with hl | hl
  · exact hendings l hl
  · rw [hl, hbreak]
    decide

theorem contains_crlf_spliced (hL : L < (splitLines old).length) (hT : Insertable T)
    (h : contains ['\r', '\n'] old = false) : contains ['\r', '\n'] (spliced old L T) = false := by
  have hbreak : breakOf old = ['\n'] := if_neg (by simp [h])
  rw [← Bool.not_eq_true, contains_crlf_iff, splitLines_spliced hL hT]
  intro hc
  obtain ⟨l, hl, he⟩ := hc
  rcases mem_spliced hl with hl | hl
  · have hold := (contains_crlf_iff old).2 ⟨l, hl, he⟩
    rw [h] at hold
    cases hold
  · rw [hl, hbreak] at he
    cases he

end Spliced

end Accessors.Text

namespace Accessors

open Text (spliced breakOf)

theorem Render.Generated.insertable {t : Text} {T : List Text} (h : Render.Generated t T) : Text.Insertable T := by
  refine ⟨h.unbroken, ?_, h.first⟩
  intro e
  have hlast := h.last
  rw [e] at hlast
  cases hlast

/-- The lines of generated text are those that it was made of. -/
theorem Render.Generated.lines {t : Text} {T : List Text} (h : Render.Generated t T) : Text.lines t = T := by
  have hproper := Text.proper_ended (.inl rfl) h.unbroken
  have htext : t = (Text.ended ['\n'] T).flatMap Text.Line.text := by
    rw [h.text_eq, Text.flatMap_ended]
    rfl
  unfold Text.lines
  rw [htext, Text.splitLines_flatMap hproper, Text.bodies_ended]

namespace SourceFile

theorem adapted_unlines (old : Text) {T : List Text} (hT : ∀ l ∈ T, Text.Unbroken l) :
    adapted old (Text.unlines T) = (Text.ended (breakOf old) T).flatMap Text.Line.text := by
  -- A line keeps its characters, and only its line feed is replaced.
  have hline : ∀ l : Text, '\n' ∉ l →
      (l ++ ['\n']).flatMap (fun d => if d = '\n' then ['\r', '\n'] else [d]) = l ++ ['\r', '\n'] := by
    intro l hl
    induction l with
    | nil => rfl
    | cons c l ih =>
      obtain ⟨hc, hl⟩ : c ≠ '\n' ∧ '\n' ∉ l := by simpa [eq_comm] using hl
      rw [List.cons_append, List.flatMap_cons, if_neg hc, ih hl]
      rfl
  rw [Text.flatMap_ended]
  unfold adapted breakOf Text.unlines
  split
  · rw [Text.replaceAll_singleton]
    induction T with
    | nil => rfl
    | cons l T ih =>
      have hl := hline l (Text.Unbroken.not_mem (hT l (by simp)))
      rw [List.flatMap_cons, List.flatMap_append, hl, ih fun m hm => hT m (List.mem_cons_of_mem _ hm), List.flatMap_cons]
  · rfl

theorem edited_ok {f : SourceFile} {opening : Opening} {old : Text} (hold : f.text opening = .ok (.ok old))
    {i : Insertion} {L : Nat} (hline : i.line = L) (hL : L < (Text.splitLines old).length) {T : List Text}
    (hT : ∀ l ∈ T, Text.Unbroken l) (htext : i.text = Text.unlines T) :
    ∃ e, f.edited opening i = .ok (.ok e) ∧ e.content = spliced old L T := by
  have hcount : ¬((Text.lines old).length : Int) < i.line := by
    unfold Text.lines
    rw [hline, List.length_map]
    omega
  have hcut : cut (Text.linesKept old) i.line =
      (((Text.splitLines old).take L).flatMap Text.Line.text, ((Text.splitLines old).drop L).flatMap Text.Line.text) := by
    unfold cut Text.linesKept
    rw [hline, if_neg (by omega), Int.toNat_natCast]
    dsimp only
    rw [← List.map_take, ← List.map_drop, ← List.flatMap_def, ← List.flatMap_def]
  refine ⟨⟨(cut (Text.linesKept old) i.line).1, adapted old i.text, (cut (Text.linesKept old) i.line).2⟩, ?_, ?_⟩
  · rw [edited_of_text hold, if_neg hcount]
  · unfold Edited.content spliced
    rw [hcut, htext, adapted_unlines old hT, List.flatMap_append, List.flatMap_append]

/-- An insertion that was built on the text of a file, into the file that still has it. -/
structure Fits (f : SourceFile) (opening : Opening) (old : Text) (i : Insertion) (L : Nat) (T : List Text) : Prop where
  closing : Command.closingLine? (Text.lines old) = some L
  line : i.line = L
  generated : Render.Generated i.text T
  edited : ∃ e, f.edited opening i = .ok (.ok e) ∧ e.content = spliced old L T

theorem lt_of_closingLine? {old : Text} {L : Nat} (h : Command.closingLine? (Text.lines old) = some L) :
    L < (Text.splitLines old).length := by
  obtain ⟨A, b, B, hcut, hA, -, -⟩ := Command.closingLine?_iff.1 h
  have hlen := congrArg List.length hcut
  rw [Text.lines, List.length_map, List.length_append, List.length_cons] at hlen
  omega

theorem fits_of_build {f : SourceFile} {opening : Opening} {old : Text} (hold : f.text opening = .ok (.ok old))
    {s : Settings} {kind : AccessorKind} {selections : List Int} {languageId : Text} {uri : Option Codes} {i : Insertion}
    (h : (Command.build s (Document.ofText old selections languageId uri) kind).outcome = .ok (.ok i)) :
    ∃ L T, Fits f opening old i L T := by
  have hlines : ∀ l ∈ (Document.ofText old selections languageId uri).lines, Text.Unbroken l :=
    fun _ hl => Text.unbroken_of_mem_lines hl
  obtain ⟨L, hL, hline, -, -⟩ := Command.build_iff.1 h
  obtain ⟨-, -, -, T, -, -, -, -, hT⟩ := Command.build_ok hlines h
  exact ⟨L, T, hL, hline, hT, edited_ok hold hline (lt_of_closingLine? hL) hT.unbroken hT.text_eq⟩

theorem Fits.accepted {f : SourceFile} {opening : Opening} {old : Text} {i : Insertion} {L : Nat} {T : List Text}
    (h : Fits f opening old i L T) : f.reply opening i = .accepted := by
  obtain ⟨e, he, -⟩ := h.edited
  unfold reply
  rw [he]

/-- The file takes what was built on its own text. -/
theorem reply_built {f : SourceFile} {opening : Opening} {t : Text} {selections : List Int} {languageId : Text}
    {uri : Option Codes} {s : Settings} {kind : AccessorKind} (hold : f.text opening = .ok (.ok t)) {i : Insertion}
    (h : (Command.build s (Document.ofText t selections languageId uri) kind).outcome = .ok (.ok i)) :
    f.reply opening i = .accepted := by
  obtain ⟨L, T, hfits⟩ := fits_of_build hold h
  exact hfits.accepted

end SourceFile

end Accessors
