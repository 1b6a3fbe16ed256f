/-
  Accessors.Proofs.Editor.SourceFile — what a file makes of an insertion.

  A file that can be read is cut between two of its lines (`CutAt`): before the place of
  an insertion stand as many lines as its number says, or all but as many as it counts
  from the end. The text goes in between with the breaks of the file (`Adapted`).
  - `edited_eq_ok_iff`: so an insertion goes into a file that can be read, if it is not
    past its end, and into no other;
  - `reply_eq_accepted_iff`, `reply_of_text`: what the file replies.
-/
import Accessors.Editor.SourceFile
import Accessors.Proofs.Text.Replace
import Accessors.Text.Utf8.Lemmas

namespace Accessors.SourceFile

/-- How many of `count` lines stand before a place; a negative one counts from the end. -/
def linesBefore (count : Nat) (line : Int) : Nat := if 0 ≤ line then line.toNat else count - line.natAbs

/-- A text cut between two of its lines, which keep their breaks. -/
structure CutAt (old : Text) (line : Int) (before behind : Text) : Prop where
  whole : old = before ++ behind
  lines : before = ((Text.linesKept old).take (linesBefore (Text.lines old).length line)).flatten

/-- A text with the breaks of another: if that has a line feed behind a carriage return
    anywhere, each of its own has one. -/
structure Adapted (old text inserted : Text) : Prop where
  returned : ['\r', '\n'] <:+: old → inserted = text.flatMap fun c => if c = '\n' then ['\r', '\n'] else [c]
  plain : ¬['\r', '\n'] <:+: old → inserted = text

theorem length_linesKept (old : Text) : (Text.linesKept old).length = (Text.lines old).length := by
  unfold Text.linesKept Text.lines
  rw [List.length_map, List.length_map]

theorem cutAt_iff {old : Text} {line : Int} {before behind : Text} :
    CutAt old line before behind ↔ cut (Text.linesKept old) line = (before, behind) := by
  have hindex : (if line < 0 then ((Text.linesKept old).length + line).toNat else line.toNat) =
      linesBefore (Text.lines old).length line := by
    rw [length_linesKept]
    unfold linesBefore
    split <;> split <;> omega
  have hwhole : ∀ n, ((Text.linesKept old).take n).flatten ++ ((Text.linesKept old).drop n).flatten = old := by
    intro n
    rw [← List.flatten_append, List.take_append_drop, Text.flatten_linesKept]
  unfold cut
  dsimp only
  rw [hindex]
  constructor
  · intro h
    have hbehind := hwhole (linesBefore (Text.lines old).length line)
    rw [← h.lines] at hbehind
    rw [← h.lines, List.append_cancel_left (hbehind.trans h.whole)]
  · intro h
    obtain ⟨rfl, rfl⟩ := Prod.mk.inj h
    exact ⟨(hwhole _).symm, rfl⟩

theorem adapted_iff {old text inserted : Text} : Adapted old text inserted ↔ adapted old text = inserted := by
  unfold adapted
  rw [Text.replaceAll_singleton]
  by_cases h : Text.contains ['\r', '\n'] old = true
  · have hold := Text.contains_iff.1 h
    rw [if_pos h]
    exact ⟨fun ha => (ha.returned hold).symm, fun he => ⟨fun _ => he.symm, fun hn => absurd hold hn⟩⟩
  · have hold : ¬['\r', '\n'] <:+: old := fun hi => h (Text.contains_iff.2 hi)
    rw [if_neg h]
    exact ⟨fun ha => (ha.plain hold).symm, fun he => ⟨fun hi => absurd hi hold, fun _ => he.symm⟩⟩

/-! ## Reading and editing -/

section File

variable {f : SourceFile} {opening : Opening}

/-- The file's text, if its bytes can be read. -/
theorem text_iff {t : Text} : f.text opening = .ok (.ok t) ↔
    Text.contains ['\x00'] f.path.text = false ∧ ∃ bytes, opening f.path.text = .ok bytes ∧ Utf8.decode bytes = .ok t := by
  unfold text
  cases hnull : Text.contains ['\x00'] f.path.text with
  | true => simp
  | false =>
    simp only [Bool.false_eq_true, if_false, true_and]
    cases ho : opening f.path.text with
    | error e => simp
    | ok bytes =>
      cases hd : Utf8.decode bytes with
      | error e => simp [hd]
      | ok u => simp [hd]

/-- The file without its text: it cannot be opened. -/
theorem text_unreadable {e : DiskFault} (hnull : '\x00' ∉ f.path.text) (h : opening f.path.text = .error e) :
    f.text opening = .ok (.error ("Could not read ".toList ++ f.path.text ++ ": ".toList ++ e.message f.path.text)) := by
  unfold text
  rw [if_neg fun hc => hnull (Text.contains_char_iff.1 hc), h]

theorem text_null (h : '\x00' ∈ f.path.text) : f.text opening = .error .nullInPath := by
  unfold text
  rw [if_pos (Text.contains_char_iff.2 h)]

theorem text_encoded {t : Text} (hnull : '\x00' ∉ f.path.text) (h : opening f.path.text = .ok (Utf8.encode t)) :
    f.text opening = .ok (.ok t) :=
  text_iff.2 ⟨Bool.eq_false_iff.2 fun hc => hnull (Text.contains_char_iff.1 hc), _, h, Utf8.decode_encode t⟩

/-- The file without its text: what it holds is no text. -/
theorem text_undecodable {bytes : Bytes} (hnull : '\x00' ∉ f.path.text) (h : opening f.path.text = .ok bytes)
    (hbytes : ∀ t, bytes ≠ Utf8.encode t) : ∃ fault, f.text opening = .error (.undecodable fault) := by
  unfold text
  rw [if_neg fun hc => hnull (Text.contains_char_iff.1 hc), h]
  cases hd : Utf8.decode bytes with
  | ok t => exact absurd (Utf8.decode_eq_ok_iff.1 hd) (hbytes t)
  | error fault => exact ⟨fault, by simp only [hd]⟩

/-- The complaint about a line past the end of the file, with its number. -/
def refusal (f : SourceFile) (line : Int) : Text :=
  "Line ".toList ++ Text.ofInt line ++ " is past the end of ".toList ++ f.path.text

theorem pastEnd_eq (line : Int) : f.pastEnd line =
    if IntText.maxDigits < (Text.ofNat line.natAbs).length then .error (.wholeNumber .tooLarge)
    else .ok (f.refusal line) := by
  unfold pastEnd IntText.write
  by_cases h : IntText.maxDigits < (Text.ofNat line.natAbs).length
  · rw [if_pos h, if_pos h]
  · rw [if_neg h, if_neg h]
    rfl

theorem edited_of_text {old : Text} (hold : f.text opening = .ok (.ok old)) (i : Insertion) :
    f.edited opening i =
      if (Text.lines old).length < i.line then (f.pastEnd i.line).map .error
      else .ok (.ok ⟨(cut (Text.linesKept old) i.line).1, adapted old i.text, (cut (Text.linesKept old) i.line).2⟩) := by
  unfold edited
  rw [hold, ← length_linesKept]
  show (if _ then _ else _) = _
  split
  · cases f.pastEnd i.line <;> rfl
  · rfl

theorem edited_eq_ok_iff {i : Insertion} {e : Edited} : f.edited opening i = .ok (.ok e) ↔
    ∃ old, f.text opening = .ok (.ok old) ∧ i.line ≤ (Text.lines old).length ∧
      CutAt old i.line e.before e.behind ∧ Adapted old i.text e.inserted := by
  obtain ⟨before, inserted, behind⟩ := e
  constructor
  · intro h
    cases hold : f.text opening with
    | error fault =>
      unfold edited at h
      rw [hold] at h
      cases h
    | ok r =>
      cases r with
      | error reason =>
        unfold edited at h
        rw [hold] at h
        cases h
      | ok old =>
        rw [edited_of_text hold] at h
        split at h
        · cases hend : f.pastEnd i.line <;> rw [hend] at h <;> cases h
        · rename_i hline
          obtain ⟨hbefore, hinserted, hbehind⟩ := Edited.mk.inj (Except.ok.inj (Except.ok.inj h))
          exact ⟨old, rfl, by omega, cutAt_iff.2 (Prod.ext hbefore hbehind), adapted_iff.2 hinserted⟩
  · rintro ⟨old, hold, hline, hcut, hadapted⟩
    rw [edited_of_text hold, if_neg (by omega), cutAt_iff.1 hcut, adapted_iff.1 hadapted]

theorem reply_eq_accepted_iff {i : Insertion} : f.reply opening i = .accepted ↔ ∃ e, f.edited opening i = .ok (.ok e) := by
  unfold reply
  cases f.edited opening i with
  | error fault => simp
  | ok r => cases r <;> simp

/-- A file that can be read takes what is not past its last line, and complains of all
    else, unless the number of the line is too long for that. -/
theorem reply_of_text {old : Text} (hold : f.text opening = .ok (.ok old)) (i : Insertion) : f.reply opening i =
    if (Text.lines old).length < i.line then
      if IntText.maxDigits < (Text.ofNat i.line.natAbs).length then .broken (.wholeNumber .tooLarge)
      else .failed (f.refusal i.line)
    else .accepted := by
  unfold reply
  rw [edited_of_text hold, pastEnd_eq]
  by_cases hline : (Text.lines old).length < i.line
  · rw [if_pos hline, if_pos hline]
    by_cases hdigits : IntText.maxDigits < (Text.ofNat i.line.natAbs).length
    · rw [if_pos hdigits, if_pos hdigits]
      rfl
    · rw [if_neg hdigits, if_neg hdigits]
      rfl
  · rw [if_neg hline, if_neg hline]

theorem outputs_of_edited {i : Insertion} {e : Edited} (h : f.edited opening i = .ok (.ok e)) :
    f.outputs opening (.insert i) = editedOutputs f e := by
  unfold outputs
  dsimp only
  rw [h]

/-- Nothing is seen of an insertion that is not accepted. -/
theorem outputs_of_not_accepted {i : Insertion} (h : f.reply opening i ≠ .accepted) : f.outputs opening (.insert i) = [] := by
  unfold outputs
  dsimp only
  split
  · rename_i e he
    exact absurd (reply_eq_accepted_iff.2 ⟨e, he⟩) h
  · rfl

end File

end Accessors.SourceFile
