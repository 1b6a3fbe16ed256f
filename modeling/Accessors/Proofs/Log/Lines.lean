/-
  Accessors.Proofs.Log.Lines — records as lines of JSON, and read again.

  A record is one object in one line of ASCII, whatever breaks there are in its message,
  and the object is read as the strings of the record under their names (`tells_json`).
  Strings are read as they are unless they hold the two halves of a pair behind each
  other (`joined_eq_self_iff`), which characters never do (`OfTexts.unpaired`). As no line
  has a line feed in it, what has been written of records is cut at its line feeds into
  one line for each of them (`json_lines`), but for those whose arguments do not fit or
  whose moment has no form.
-/
import Accessors.Proofs.Log.Arguments
import Accessors.Proofs.Log.Loggers
import Accessors.Proofs.Text.Pieces
import Accessors.Proofs.Value.Encoded

namespace Accessors.Log

open Value (joined)

/-! ## Entries -/

namespace Entry

variable {e : Entry}

def strings (e : Entry) : List Codes := e.level :: e.logger :: e.message :: e.exception.toList

def IsStrings (e : Entry) : Prop := ∀ s ∈ e.strings, Codes.IsString s

/-- In none of the strings the two halves of a pair stand behind each other. -/
def Unpaired (e : Entry) : Prop := ∀ s ∈ e.strings, Codes.Unpaired s

/-- All of the strings are made of characters. -/
def OfTexts (e : Entry) : Prop := ∀ s ∈ e.strings, ∃ t : Text, s = t.codes

/-- The entry with such halves joined. -/
def joined (e : Entry) : Entry where
  level := Value.joined e.level
  logger := Value.joined e.logger
  message := Value.joined e.message
  exception := e.exception.map Value.joined

theorem joined_eq_self_iff (e : Entry) : e.joined = e ↔ e.Unpaired := by
  obtain ⟨level, logger, message, exception⟩ := e
  have hexception : exception.map Value.joined = exception ↔ ∀ s ∈ exception.toList, Codes.Unpaired s := by
    cases exception <;> simp [Value.joined_eq_self_iff]
  simp [joined, Unpaired, strings, Value.joined_eq_self_iff, hexception]

theorem OfTexts.isStrings (h : e.OfTexts) : e.IsStrings := by
  intro s hs
  obtain ⟨t, rfl⟩ := h s hs
  exact Codes.isString_codes t

theorem OfTexts.unpaired (h : e.OfTexts) : e.Unpaired := by
  intro s hs
  obtain ⟨t, rfl⟩ := h s hs
  exact Codes.unpaired_codes t

/-! ## Lines -/

/-- What the members of an object tell of an entry: each string under its name, and an
    exception only if there is one. -/
structure In (e : Entry) (time : Text) (members : Entries Codes Value) : Prop where
  once : (Entries.keys members).Nodup
  time : Entries.find? (Text.codes "time".toList) members = some (.text time)
  level : Entries.find? (Text.codes "level".toList) members = some (.str e.level)
  logger : Entries.find? (Text.codes "logger".toList) members = some (.str e.logger)
  message : Entries.find? (Text.codes "message".toList) members = some (.str e.message)
  exception : Entries.find? (Text.codes "exception".toList) members = e.exception.map .str

/-- A line of printable ASCII that is read as one object, which tells the entry, by a reader
    that takes any objects at all. -/
structure Tells (line time : Text) (e : Entry) : Prop where
  graphic : Value.Graphic line
  one : Text.lines line = [line]
  read : ∃ members, e.In time members ∧
    ∀ bounds : Value.Bounds, 0 < bounds.depth → Value.read bounds line = .ok (.object members)

theorem in_members (e : Entry) (time : Text) : e.In time (Value.strings (e.members time)) := by
  obtain ⟨level, logger, message, exception⟩ := e
  -- The names are the same in every entry, but for the last one.
  have hnames : ["time", "level", "logger", "message", "exception"].map (fun n => Text.codes n.toList) |>.Nodup := by
    decide
  cases exception with
  | none => exact ⟨(List.nodup_append.1 hnames).1, rfl, rfl, rfl, rfl, rfl⟩
  | some s => exact ⟨hnames, rfl, rfl, rfl, rfl, rfl⟩

theorem of_mem_members {time : Text} {m : Codes × Codes} (h : m ∈ e.members time) :
    (∃ name : Text, m.1 = name.codes) ∧ (m.2 = time.codes ∨ m.2 ∈ e.strings) := by
  obtain ⟨level, logger, message, exception⟩ := e
  cases exception with
  | none =>
    simp only [members, List.append_nil, List.mem_cons, List.not_mem_nil, or_false] at h
    rcases h with rfl | rfl | rfl | rfl <;> exact ⟨⟨_, rfl⟩, by simp [strings]⟩
  | some s =>
    simp only [members, List.mem_append, List.mem_cons, List.not_mem_nil, or_false] at h
    rcases h with (rfl | rfl | rfl | rfl) | rfl <;> exact ⟨⟨_, rfl⟩, by simp [strings]⟩

theorem joinedMember_members (e : Entry) (time : Text) :
    (e.members time).map Value.joinedMember = e.joined.members time := by
  have hname : ∀ (t : Text) (s : Codes), Value.joinedMember (t.codes, s) = (t.codes, Value.joined s) :=
    fun t s => congrArg (·, Value.joined s) (Value.joined_codes t)
  obtain ⟨level, logger, message, exception⟩ := e
  cases exception <;> simp [members, joined, hname, Value.joined_codes]

/-- One line tells the entry, with halves of pairs joined. -/
theorem tells_json (h : e.IsStrings) (time : Text) : Tells (e.json time) time e.joined := by
  have hgraphic : Value.Graphic (e.json time) := Value.graphic_ofStrings (e.members time)
  have hstrings : ∀ m ∈ e.members time, Codes.IsString m.1 ∧ Codes.IsString m.2 := by
    intro m hm
    obtain ⟨⟨name, hname⟩, hvalue⟩ := of_mem_members hm
    refine ⟨hname ▸ Codes.isString_codes name, ?_⟩
    rcases hvalue with hvalue | hvalue
    · exact hvalue ▸ Codes.isString_codes time
    · exact h _ hvalue
  have htold := e.joined.in_members time
  refine ⟨hgraphic, ?_, _, htold, fun bounds hdepth => ?_⟩
  · rw [Text.lines, Text.splitLines_unbroken hgraphic.unbroken (List.cons_ne_nil _ _)]
    rfl
  · rw [json, Value.read_ofStrings (by simp [members]) hstrings hdepth, joinedMember_members, Entries.ofPairs,
      Entries.assignAll_new htold.once, List.nil_append]

end Entry

/-! ## Records -/

namespace Record

/-- The record under the name that is shown of its logger. -/
def shown (r : Record) : Record := { r with notice := { r.notice with logger := Setup.shownName r.notice.logger } }

/-- Its arguments fit its message, and its moment has a form. -/
def IsWritten (r : Record) : Prop := r.message?.isSome = true ∧ (stamp? r.moment.microsecond).isSome = true

instance (r : Record) : Decidable r.IsWritten := inferInstanceAs (Decidable (_ ∧ _))

/-- The strings that come with a record. -/
def strings (r : Record) : List Codes := r.notice.message :: r.exception.toList ++ r.args.flatMap givenStrings

def IsStrings (r : Record) : Prop := ∀ s ∈ r.strings, Codes.IsString s

theorem isStrings_told {r : Record} (h : r.IsStrings) {e : Entry} (he : r.told? = some e) : e.IsStrings := by
  obtain ⟨message, hmessage, rfl⟩ := Option.map_eq_some_iff.1 he
  have hfilled : Codes.IsString message :=
    isString_filled hmessage (h _ (by simp [strings])) fun s hs => h s (List.mem_append_right _ hs)
  have hexception : ∀ s ∈ r.exception.toList, Codes.IsString s := fun s hs => h s (by simp [strings, hs])
  intro s hs
  simp only [Entry.strings, List.mem_cons] at hs
  rcases hs with rfl | rfl | rfl | hs
  · exact Codes.isString_codes _
  · exact Codes.isString_codes _
  · exact hfilled
  · exact hexception s hs

/-- The names of the level and the logger are made of characters. -/
theorem joined_told {r : Record} {e : Entry} (he : r.told? = some e) :
    e.joined = e ↔ Codes.Unpaired e.message ∧ ∀ s ∈ r.exception, Codes.Unpaired s := by
  obtain ⟨message, -, rfl⟩ := Option.map_eq_some_iff.1 he
  have hcodes := Codes.unpaired_codes
  rw [Entry.joined_eq_self_iff]
  simp [Entry.Unpaired, Entry.strings, hcodes]

/-- The line tells the record, with halves of pairs joined. -/
def ToldBy (r : Record) (line : Text) : Prop :=
  ∃ time e, stamp? r.moment.microsecond = some time ∧ r.told? = some e ∧ Entry.Tells line time e.joined

theorem toldBy_of_isWritten {r : Record} (h : r.IsStrings) (hwritten : r.IsWritten) :
    ∃ line, r.jsonText? = some line ∧ r.ToldBy line := by
  obtain ⟨message, hmessage⟩ := Option.isSome_iff_exists.1 hwritten.1
  obtain ⟨time, htime⟩ := Option.isSome_iff_exists.1 hwritten.2
  obtain ⟨e, he⟩ : ∃ e, r.told? = some e := ⟨_, by rw [told?, hmessage]; rfl⟩
  have hjson : r.jsonText? = some (e.json time) := by simp [jsonText?, he, Entry.jsonText?, htime]
  exact ⟨_, hjson, time, e, htime, he, Entry.tells_json (isStrings_told h he) time⟩

theorem jsonText?_of_not_isWritten {r : Record} (h : ¬r.IsWritten) : r.jsonText? = none := by
  rw [IsWritten, Option.isSome_iff_ne_none, Option.isSome_iff_ne_none] at h
  rw [jsonText?, told?]
  cases hmessage : r.message? with
  | none => rfl
  | some message =>
    cases htime : stamp? r.moment.microsecond with
    | none => simp [Entry.jsonText?, htime]
    | some time => exact absurd ⟨by simp [hmessage], by simp [htime]⟩ h

end Record

namespace Loggers

/-- The records whose level counts at their loggers, as they are shown. -/
def emitted (ls : Loggers) : List Record → List Record
  | [] => []
  | r :: rs =>
    let ls := ls.asked r.notice.logger
    if ls.isEnabled r.notice.logger r.notice.level then r.shown :: ls.emitted rs else ls.emitted rs

/-- The lines of records in JSON. -/
def jsonLines (rs : List Record) : List Text := rs.filterMap Record.jsonText?

variable {s : Setup} {ls : Loggers}

theorem mem_emitted {rs : List Record} {r : Record} (h : r ∈ ls.emitted rs) : ∃ r' ∈ rs, r = r'.shown := by
  induction rs generalizing ls with
  | nil => cases h
  | cons r' rs ih =>
    have hrest : ∀ ls' : Loggers, r ∈ ls'.emitted rs → ∃ r'' ∈ r' :: rs, r = r''.shown := by
      intro ls' hr
      obtain ⟨r'', hmem, he⟩ := ih hr
      exact ⟨r'', List.mem_cons_of_mem _ hmem, he⟩
    rw [emitted] at h
    split at h
    · rcases List.mem_cons.1 h with he | h
      · exact ⟨r', List.mem_cons_self, he⟩
      · exact hrest _ h
    · exact hrest _ h

theorem graphic_of_mem_jsonLines {rs : List Record} {line : Text} (h : line ∈ jsonLines rs) : Value.Graphic line := by
  obtain ⟨r, -, hline⟩ := List.mem_filterMap.1 h
  obtain ⟨e, -, hline⟩ := Option.bind_eq_some_iff.1 hline
  obtain ⟨time, -, rfl⟩ := Option.map_eq_some_iff.1 hline
  exact Value.graphic_ofStrings _

theorem lines_json (r : Record) : (Format.json.lines? r).getD [] = Text.codes (Text.unlines (jsonLines [r])) := by
  cases hline : r.jsonText? with
  | none => simp [Format.lines?, jsonLines, hline, Text.unlines, Text.codes]
  | some line => simp [Format.lines?, jsonLines, hline, Text.unlines, Text.codes, lineFeed]

theorem Holds.written_json (h : Holds (some s) ls) (hs : s.format = .json) (r : Record) : ls.written r =
    if ls.isEnabled r.notice.logger r.notice.level then Text.codes (Text.unlines (jsonLines [r.shown])) else [] := by
  have hhandlers : ls.handlers = [.stream .json] := h.handlers.trans (congrArg (fun f => [Handler.stream f]) hs)
  have hone : ls.handlers.flatMap (Handler.lines r) = Text.codes (Text.unlines (jsonLines [r.shown])) := by
    rw [hhandlers, ← lines_json]
    exact List.append_nil _
  rw [Loggers.written, hone]

/-- After any setups the last one holds. -/
theorem holds_afterSetups (made : List Text) (earlier : List (Text × Text)) (level format : Text) :
    Holds (some (Setup.ofNames level format)) (afterSetups made (earlier ++ [(level, format)])) := by
  have hholds := holds_foldl made ((earlier.map fun n => Setup.ofNames n.1 n.2) ++ [Setup.ofNames level format])
  rw [Setup.current_append] at hholds
  rw [afterSetups, List.map_append]
  exact hholds

/-- What is written in JSON are the lines of the records that count. -/
theorem Holds.output_json (h : Holds (some s) ls) (hs : s.format = .json) (rs : List Record) :
    ls.output rs = Text.codes (Text.unlines (jsonLines (ls.emitted rs))) := by
  induction rs generalizing ls with
  | nil => rfl
  | cons r rs ih =>
    have hasked := h.asked r.notice.logger
    rw [Loggers.output, hasked.written_json hs, ih hasked, emitted]
    split
    · have hfirst : jsonLines (r.shown :: (ls.asked r.notice.logger).emitted rs) =
          jsonLines [r.shown] ++ jsonLines ((ls.asked r.notice.logger).emitted rs) := List.filterMap_append (l := [_])
      rw [hfirst, Text.unlines_append]
      exact List.map_append.symm
    · rfl

/-- One line for each record that is written, in their order. -/
theorem forall₂_jsonLines {rs : List Record} (h : ∀ r ∈ rs, r.IsStrings) :
    List.Forall₂ Record.ToldBy (rs.filter (·.IsWritten)) (jsonLines rs) := by
  induction rs with
  | nil => exact .nil
  | cons r rs ih =>
    obtain ⟨hr, hrest⟩ := List.forall_mem_cons.1 h
    by_cases hwritten : r.IsWritten
    · obtain ⟨line, hline, htold⟩ := Record.toldBy_of_isWritten hr hwritten
      rw [List.filter_cons_of_pos (by simpa using hwritten), jsonLines, List.filterMap_cons_some hline]
      exact .cons htold (ih hrest)
    · rw [List.filter_cons_of_neg (by simpa using hwritten), jsonLines,
        List.filterMap_cons_none (Record.jsonText?_of_not_isWritten hwritten)]
      exact ih hrest

/-- A record of any characters is one line of printable ASCII, if its moment has a form, and
    the line is read as one object with the level, the logger, the message and, if there is
    one, the exception of the record. Of strings of any code points the same is read, unless
    two halves of a pair stand behind each other in them, which are read as the character
    that they are the halves of. So after any setups of which the last asks for JSON the
    output can be cut at its line feeds into the lines of the records that count, one for
    each of them whose arguments fit, and in their order. -/
theorem json_lines :
    (∀ (e : Entry) (m : Moment) (time : Text), e.OfTexts → stamp? m.microsecond = some time →
      ∃ line, e.jsonText? m = some line ∧ Entry.Tells line time e) ∧
    (∀ (e : Entry) (m : Moment) (time : Text), e.IsStrings → stamp? m.microsecond = some time →
      ∃ line, e.jsonText? m = some line ∧ Entry.Tells line time e.joined ∧ (e.joined = e ↔ e.Unpaired)) ∧
    ∀ (made : List Text) (earlier : List (Text × Text)) (level : Text) (records : List Record),
      (∀ r ∈ records, r.IsStrings) →
      let ls := afterSetups made (earlier ++ [(level, "json".toList)])
      let lines := jsonLines (ls.emitted records)
      ls.output records = Text.codes (Text.unlines lines) ∧
      Text.splitOn '\n' (Text.unlines lines) = lines ++ [[]] ∧
      List.Forall₂ Record.ToldBy ((ls.emitted records).filter (·.IsWritten)) lines ∧
      ∀ r ∈ ls.emitted records, ∀ e ∈ r.told?,
        e.joined = e ↔ Codes.Unpaired e.message ∧ ∀ s ∈ r.exception, Codes.Unpaired s := by
  have hline : ∀ (e : Entry) (m : Moment) (time : Text), e.IsStrings → stamp? m.microsecond = some time →
      ∃ line, e.jsonText? m = some line ∧ Entry.Tells line time e.joined ∧ (e.joined = e ↔ e.Unpaired) := by
    intro e m time he hstamp
    have hjson : e.jsonText? m = some (e.json time) := by rw [Entry.jsonText?, hstamp, Option.map_some]
    exact ⟨_, hjson, Entry.tells_json he time, e.joined_eq_self_iff⟩
  refine ⟨fun e m time he hstamp => ?_, hline, ?_⟩
  · obtain ⟨line, hjson, htells, hjoined⟩ := hline e m time he.isStrings hstamp
    rw [hjoined.2 he.unpaired] at htells
    exact ⟨line, hjson, htells⟩
  · intro made earlier level records hrecords ls lines
    have hholds : Holds (some (Setup.ofNames level "json".toList)) ls := holds_afterSetups made earlier level _
    have hstrings : ∀ r ∈ ls.emitted records, r.IsStrings := by
      intro r hr
      obtain ⟨r', hr', rfl⟩ := mem_emitted hr
      exact hrecords r' hr'
    have hwhole : ∀ line ∈ lines, '\n' ∉ line := fun line hline => (graphic_of_mem_jsonLines hline).unbroken.not_mem
    exact ⟨hholds.output_json rfl records, Text.splitOn_unlines hwhole, forall₂_jsonLines hstrings,
      fun r _ e he => Record.joined_told he⟩

/-- Breaks, a quote and a backslash, the halves of a character as strings have them, and a
    record of the root whose message is filled. -/
theorem json_lines_sample :
    let e : Entry := ⟨Text.codes "Level 25".toList, Text.codes "a.b".toList, Text.codes "\r\n\"\\ü😀".toList, some []⟩
    let halves : Entry := ⟨[], [], [0xd83d, 0xde00], none⟩
    let r : Record := ⟨⟨Level.error, [], Text.codes "\n%s".toList⟩, [.str [0x1f600]], ⟨0, 0⟩, none⟩
    let ls := afterSetups [] [("info".toList, "json".toList)]
    let time := "1970-01-01T00:00:00+00:00".toList
    (∃ line, e.jsonText? ⟨0, 0⟩ = some line ∧ Entry.Tells line time e) ∧
    (∃ line, halves.jsonText? ⟨0, 0⟩ = some line ∧ Entry.Tells line time ⟨[], [], [0x1f600], none⟩) ∧
    ∃ line, ls.output [r] = Text.codes (line ++ ['\n']) ∧
      Entry.Tells line time ⟨Text.codes "ERROR".toList, Text.codes "root".toList, [10, 0x1f600], none⟩ := by
  intro e halves r ls time
  obtain ⟨htexts, hstrings, houtput⟩ := json_lines
  have hstamp : stamp? 0 = some time := by decide
  refine ⟨htexts e ⟨0, 0⟩ time ?_ hstamp, ?_, ?_⟩
  · intro s hs
    simp only [e, Entry.strings, Option.toList, List.mem_cons, List.not_mem_nil, or_false] at hs
    rcases hs with rfl | rfl | rfl | rfl
    · exact ⟨_, rfl⟩
    · exact ⟨_, rfl⟩
    · exact ⟨_, rfl⟩
    · exact ⟨[], rfl⟩
  · have hhalves : halves.IsStrings := by
      unfold Entry.IsStrings Codes.IsString
      decide
    obtain ⟨line, hline, htells, -⟩ := hstrings halves ⟨0, 0⟩ time hhalves hstamp
    exact ⟨line, hline, htells⟩
  · have hr : ∀ r' ∈ [r], r'.IsStrings := by
      refine List.forall_mem_singleton.2 ?_
      unfold Record.IsStrings Codes.IsString
      decide
    obtain ⟨hwritten, -, hlines, -⟩ := houtput [] [] "info".toList [r] hr
    have hemitted : ls.emitted [r] = [r.shown] := rfl
    have hkept : [r.shown].filter (·.IsWritten) = [r.shown] := List.filter_cons_of_pos (by decide)
    have hls : afterSetups [] ([] ++ [("info".toList, "json".toList)]) = ls := rfl
    rw [hls, hemitted] at hwritten hlines
    rw [hkept] at hlines
    cases hcons : jsonLines [r.shown] with
    | nil =>
      rw [hcons] at hlines
      cases hlines
    | cons line rest =>
      rw [hcons] at hlines hwritten
      obtain ⟨⟨time', e', htime, he', htells⟩, hrest⟩ := List.forall₂_cons.1 hlines
      obtain rfl : rest = [] := List.forall₂_nil_left_iff.1 hrest
      obtain rfl : time = time' := Option.some.inj (hstamp.symm.trans htime)
      have hentry : r.shown.told? =
          some ⟨Text.codes "ERROR".toList, Text.codes "root".toList, [10, 0x1f600], none⟩ := by decide
      obtain rfl := Option.some.inj (hentry.symm.trans he')
      exact ⟨line, hwritten.trans (congrArg Text.codes (List.append_nil _)), htells⟩

end Loggers

end Accessors.Log
