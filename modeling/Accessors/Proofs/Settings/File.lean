/-
  Accessors.Proofs.Settings.File — what becomes of a file with settings.

  Settings come from a file that holds a JSON object in UTF-8, and from no other one. A
  file that cannot be opened, is no JSON or is JSON of another kind is refused, with a
  message. But a null character in the path, bytes that are not UTF-8, a whole number of
  too many digits and values nested too deeply end in a fault, and the last two do so in
  files that hold an object too. Each has a condition of its own on the path, the bytes or
  the text, in which there is nothing of how the file is read (`Outcome`).
  - `ofFile_outcome`: for every path, and whatever is found there, which files give
    settings, which are refused and which end in a fault;
  - `ofFile_badByte`: a file of one byte for which there is no message.
-/
import Accessors.Proofs.Value.Breaks
import Accessors.Settings.File
import Accessors.Text.Utf8.Lemmas

namespace Accessors.Settings

open Text (unifyBreaks)
open Value (Json Due Overlong)

/-- What is found at the path is this text, in UTF-8. -/
structure Holds (opening : Opening) (path t : Text) : Prop where
  noNull : '\x00' ∉ path
  bytes : opening path = .ok (Utf8.encode t)

/-- What becomes of the settings that are looked for at a path. -/
structure Outcome (bounds : Value.Bounds) (opening : Opening) (path : Text) : Prop where
  /-- Settings are the members of an object, with all that they say. -/
  loaded : ∀ s, ofFile bounds opening path = .ok (.ok s) ↔
    ∃ t, Holds opening path t ∧
      ∃ members, Json IntText.maxDigits bounds.depth t (.object members) ∧ s = ofEntries members
  unreadable : ∀ f, ofFile bounds opening path = .ok (.error (.unreadable f)) ↔ '\x00' ∉ path ∧ opening path = .error f
  notObject : ofFile bounds opening path = .ok (.error .notObject) ↔
    ∃ t, Holds opening path t ∧
      ∃ v, Json IntText.maxDigits bounds.depth t v ∧ ∀ members, v ≠ .object members
  /-- No bounds, however wide, would make a value of what is refused as malformed. -/
  malformed : ∀ cause place, ofFile bounds opening path = .ok (.error (.malformed cause place)) →
    ∃ t, Holds opening path t ∧ ∀ digits depth v, ¬Json digits depth t v
  nullInPath : ofFile bounds opening path = .error .nullInPath ↔ '\x00' ∈ path
  undecodable : (∃ f, ofFile bounds opening path = .error (.undecodable f)) ↔
    ∃ bytes, '\x00' ∉ path ∧ opening path = .ok bytes ∧ ∀ t, bytes ≠ Utf8.encode t
  /-- A whole number of too many digits stands where a value is due, in the text with line
      feeds for all its breaks. -/
  wholeNumber : ∀ f, ofFile bounds opening path = .error (.wholeNumber f) ↔
    ∃ t, Holds opening path t ∧
      ∃ e p r n, Due IntText.maxDigits bounds.depth e (unifyBreaks t) (p ++ r) ∧
        Overlong IntText.maxDigits p r n ∧ f = .tooManyDigits n
  /-- A list or an object starts where none can be nested any more. -/
  nested : ∀ t b r, Holds opening path t → Due IntText.maxDigits bounds.depth 0 (unifyBreaks t) (b :: r) →
    b = '[' ∨ b = '\x7b' → ofFile bounds opening path = .error .nestedTooDeeply
  /-- Nothing is nested too deeply unless a value is due where next to none can be nested. -/
  due : ofFile bounds opening path = .error .nestedTooDeeply →
    ∃ t, Holds opening path t ∧
      ∃ e r, Due IntText.maxDigits bounds.depth e (unifyBreaks t) r ∧ e ≤ bounds.margin
  faults : ∀ fault, ofFile bounds opening path = .error fault →
    fault = .nullInPath ∨ (∃ f, fault = .undecodable f) ∨ (∃ f, fault = .wholeNumber f) ∨ fault = .nestedTooDeeply

/-! ## From the path to the text -/

section Path

variable {bounds : Value.Bounds} {opening : Opening} {path t : Text}

theorem ofFile_null (h : '\x00' ∈ path) : ofFile bounds opening path = .error .nullInPath := by
  rw [ofFile, if_pos (Text.contains_char_iff.2 h)]

theorem ofFile_opening (h : '\x00' ∉ path) : ofFile bounds opening path = match opening path with
    | .error f => .ok (.error (.unreadable f))
    | .ok bytes =>
      match Utf8.decode bytes with
      | .error f => .error (.undecodable f)
      | .ok t => ofText bounds t :=
  if_neg fun hnull => h (Text.contains_char_iff.1 hnull)

theorem ofFile_unopened {f : DiskFault} (hpath : '\x00' ∉ path) (h : opening path = .error f) :
    ofFile bounds opening path = .ok (.error (.unreadable f)) := by
  rw [ofFile_opening hpath, h]

theorem ofFile_undecodable {bytes : Bytes} {f : Utf8.Fault} (hpath : '\x00' ∉ path) (h : opening path = .ok bytes)
    (hbytes : Utf8.decode bytes = .error f) : ofFile bounds opening path = .error (.undecodable f) := by
  rw [ofFile_opening hpath, h]
  dsimp only
  rw [hbytes]

theorem Holds.ofFile (h : Holds opening path t) : ofFile bounds opening path = ofText bounds t := by
  rw [ofFile_opening h.noNull, h.bytes]
  dsimp only
  rw [Utf8.decode_encode]

/-- What a path leads to, and the answer as far as that decides it. -/
inductive Leads (bounds : Value.Bounds) (opening : Opening) (path : Text) : Prop
  | null : '\x00' ∈ path → ofFile bounds opening path = .error .nullInPath → Leads bounds opening path
  | unopened {f : DiskFault} : '\x00' ∉ path → opening path = .error f →
      ofFile bounds opening path = .ok (.error (.unreadable f)) → Leads bounds opening path
  | undecodable {bytes : Bytes} {f : Utf8.Fault} : '\x00' ∉ path → opening path = .ok bytes →
      (∀ t, bytes ≠ Utf8.encode t) → ofFile bounds opening path = .error (.undecodable f) → Leads bounds opening path
  | text {t : Text} : Holds opening path t → ofFile bounds opening path = ofText bounds t → Leads bounds opening path

theorem leads (bounds : Value.Bounds) (opening : Opening) (path : Text) : Leads bounds opening path := by
  by_cases hpath : '\x00' ∈ path
  · exact .null hpath (ofFile_null hpath)
  · cases hopen : opening path with
    | error f => exact .unopened hpath hopen (ofFile_unopened hpath hopen)
    | ok bytes =>
      cases hbytes : Utf8.decode bytes with
      | error f =>
        refine .undecodable hpath hopen ?_ (ofFile_undecodable hpath hopen hbytes)
        rintro t rfl
        rw [Utf8.decode_encode] at hbytes
        cases hbytes
      | ok t =>
        have ht : Holds opening path t := ⟨hpath, by rw [hopen, Utf8.decode_eq_ok_iff.1 hbytes]⟩
        exact .text ht ht.ofFile

end Path

/-! ## From the text to the settings -/

section Content

variable {bounds : Value.Bounds} {t : Text}

theorem ofText_loaded {s : Settings} :
    ofText bounds t = .ok (.ok s) ↔
      ∃ members, Value.read bounds (unifyBreaks t) = .ok (.object members) ∧ s = ofEntries members := by
  unfold ofText
  cases Value.read bounds (unifyBreaks t) with
  | ok v => cases v <;> simp [eq_comm]
  | error f => cases f <;> simp

theorem ofText_notObject :
    ofText bounds t = .ok (.error .notObject) ↔
      ∃ v, Value.read bounds (unifyBreaks t) = .ok v ∧ ∀ members, v ≠ .object members := by
  unfold ofText
  cases Value.read bounds (unifyBreaks t) with
  | ok v => cases v <;> simp
  | error f => cases f <;> simp

theorem ofText_malformed {cause : Value.Cause} {place : Value.Place} :
    ofText bounds t = .ok (.error (.malformed cause place)) ↔
      Value.read bounds (unifyBreaks t) = .error (.malformed cause place) := by
  unfold ofText
  cases Value.read bounds (unifyBreaks t) with
  | ok v => cases v <;> simp
  | error f => cases f <;> simp

theorem ofText_wholeNumber {f : IntText.Fault} :
    ofText bounds t = .error (.wholeNumber f) ↔ Value.read bounds (unifyBreaks t) = .error (.wholeNumber f) := by
  unfold ofText
  cases Value.read bounds (unifyBreaks t) with
  | ok v => cases v <;> simp
  | error f => cases f <;> simp

theorem ofText_nestedTooDeeply :
    ofText bounds t = .error .nestedTooDeeply ↔ Value.read bounds (unifyBreaks t) = .error .tooDeep := by
  unfold ofText
  cases Value.read bounds (unifyBreaks t) with
  | ok v => cases v <;> simp
  | error f => cases f <;> simp

theorem ofText_faults {fault : Fault} (h : ofText bounds t = .error fault) :
    (∃ f, fault = .wholeNumber f) ∨ fault = .nestedTooDeeply := by
  unfold ofText at h
  split at h
  · cases h
  · cases h
  · cases h
  · exact .inl ⟨_, (Except.error.inj h).symm⟩
  · exact .inr (Except.error.inj h).symm

theorem ofText_ne_unreadable (f : DiskFault) : ofText bounds t ≠ .ok (.error (.unreadable f)) := by
  unfold ofText
  cases Value.read bounds (unifyBreaks t) with
  | ok v => cases v <;> simp
  | error f => cases f <;> simp

end Content

section Whole

variable {bounds : Value.Bounds} {opening : Opening} {path : Text}

/-- An answer that comes neither of the path nor of the bytes comes of the text. -/
theorem ofFile_eq_iff {x : Except Fault (Except FileFault Settings)} (hnull : x ≠ .error .nullInPath)
    (hopen : ∀ f, x ≠ .ok (.error (.unreadable f))) (hbytes : ∀ f, x ≠ .error (.undecodable f)) :
    ofFile bounds opening path = x ↔ ∃ t, Holds opening path t ∧ ofText bounds t = x := by
  constructor
  · rintro rfl
    cases leads bounds opening path with
    | null _ he => exact absurd he hnull
    | unopened _ _ he => exact absurd he (hopen _)
    | undecodable _ _ _ he => exact absurd he (hbytes _)
    | text ht he => exact ⟨_, ht, he.symm⟩
  · rintro ⟨t, ht, h⟩
    rw [ht.ofFile, h]

theorem ofFile_null_iff : ofFile bounds opening path = .error .nullInPath ↔ '\x00' ∈ path := by
  refine ⟨fun h => ?_, ofFile_null⟩
  cases leads bounds opening path with
  | null hpath _ => exact hpath
  | unopened _ _ he | undecodable _ _ _ he => rw [he] at h; cases h
  | text _ he => rcases ofText_faults (he.symm.trans h) with ⟨f, hf⟩ | hf <;> cases hf

theorem ofFile_unreadable_iff {f : DiskFault} :
    ofFile bounds opening path = .ok (.error (.unreadable f)) ↔ '\x00' ∉ path ∧ opening path = .error f := by
  refine ⟨fun h => ?_, fun h => ofFile_unopened h.1 h.2⟩
  cases leads bounds opening path with
  | null _ he | undecodable _ _ _ he => rw [he] at h; cases h
  | unopened hpath hopen he =>
    rw [he] at h
    cases h
    exact ⟨hpath, hopen⟩
  | text _ he => exact absurd (he.symm.trans h) (ofText_ne_unreadable f)

theorem ofFile_undecodable_iff : (∃ f, ofFile bounds opening path = .error (.undecodable f)) ↔
    ∃ bytes, '\x00' ∉ path ∧ opening path = .ok bytes ∧ ∀ t, bytes ≠ Utf8.encode t := by
  constructor
  · rintro ⟨f, h⟩
    cases leads bounds opening path with
    | null _ he | unopened _ _ he => rw [he] at h; cases h
    | undecodable hpath hopen hbytes _ => exact ⟨_, hpath, hopen, hbytes⟩
    | text _ he => rcases ofText_faults (he.symm.trans h) with ⟨f, hf⟩ | hf <;> cases hf
  · rintro ⟨bytes, hpath, hopen, hbytes⟩
    cases hdecode : Utf8.decode bytes with
    | ok t => exact absurd (Utf8.decode_eq_ok_iff.1 hdecode) (hbytes t)
    | error f => exact ⟨f, ofFile_undecodable hpath hopen hdecode⟩

/-- Settings come from the files that hold an object, and from no others. The others are
    refused, unless it is one of four faults that ends the reading. -/
theorem ofFile_outcome (bounds : Value.Bounds) (opening : Opening) (path : Text) : Outcome bounds opening path where
  loaded s := by
    rw [ofFile_eq_iff (by simp) (by simp) (by simp)]
    simp only [ofText_loaded, Value.read_eq_ok, Value.json_unifyBreaks]
  unreadable f := ofFile_unreadable_iff
  notObject := by
    rw [ofFile_eq_iff (by simp) (by simp) (by simp)]
    simp only [ofText_notObject, Value.read_eq_ok, Value.json_unifyBreaks]
  malformed cause place h := by
    obtain ⟨t, ht, h⟩ := (ofFile_eq_iff (by simp) (by simp) (by simp)).1 h
    refine ⟨t, ht, fun digits depth v hjson => ?_⟩
    rw [ofText_malformed] at h
    rcases Value.read_beyond (Value.json_unifyBreaks.2 hjson) with he | he | ⟨n, he⟩
    all_goals
      rw [he] at h
      cases h
  nullInPath := ofFile_null_iff
  undecodable := ofFile_undecodable_iff
  wholeNumber f := by
    rw [ofFile_eq_iff (by simp) (by simp) (by simp)]
    simp only [ofText_wholeNumber, Value.read_wholeNumber]
  nested t b r ht hdue hb := by
    rw [ht.ofFile, ofText_nestedTooDeeply]
    exact Value.read_tooDeep hdue hb
  due h := by
    obtain ⟨t, ht, h⟩ := (ofFile_eq_iff (by simp) (by simp) (by simp)).1 h
    exact ⟨t, ht, Value.due_of_read (ofText_nestedTooDeeply.1 h)⟩
  faults fault h := by
    cases leads bounds opening path with
    | null _ he => exact .inl (Except.error.inj (h.symm.trans he))
    | unopened _ _ he => rw [he] at h; cases h
    | undecodable _ _ _ he => exact .inr (.inl ⟨_, Except.error.inj (h.symm.trans he)⟩)
    | text _ he => exact .inr (.inr (ofText_faults (he.symm.trans h)))

/-- A file with a break in its object. -/
example : (ofFile ⟨1, 0⟩ (fun _ => .ok (Utf8.encode "\x7b\"redirect\":\r\n false\x7d".toList)) "s".toList).toOption.map
    (fun answer => answer.toOption.map fun s => s.entries.map Prod.fst) = some (some [redirectKey]) := by decide +kernel

/-- A byte that starts no character comes through as it is, with no message for the user. -/
theorem ofFile_badByte :
    ofFile ⟨1, 0⟩ (fun _ => .ok [0xff]) "settings.json".toList = .error (.undecodable ⟨0, [0xff], .startByte⟩) := rfl

end Whole

end Accessors.Settings
