/-
  Accessors.Proofs.Server.Cursors — the ways a client writes its cursors.

  A position is a whole number, or an object with that number as its line. An object
  around a selection leads to it under `active`, or under `start` where it has no
  `active` (`Wraps`), and any other members may stand beside. A position with any number
  of such objects around it is a cursor (`Cursor`); what is neither a whole number nor an
  object is astray (`isStray`).
  - `lineOf_wraps`, `lineOf_wrapped`: an object around a selection, and so any number of
    them, does not change how it is read;
  - `addressOf_addressed`: the address of the document counts, or else the one beside it;
  - `mapM_lineOf_cursors`, `mapM_lineOf_stray`: cursors are read one by one, up to the
    first selection that is astray;
  - `cursors_alike`: so are all arguments that send cursors, however they are written.
-/
import Accessors.Proofs.Server.Arguments
import Mathlib.Logic.Relation

namespace Accessors.Server

open Relation (ReflTransGen)

variable {members : List (Codes × Value)} {u v w : Value} {n : Int}

/-! ## Cursors -/

/-- An object with a selection inside, where it is looked for. -/
inductive Wraps : Value → Value → Prop
  | active {members : List (Codes × Value)} {v : Value} : Entries.find? (key "active") members = some v →
      Wraps v (.object members)
  | start {members : List (Codes × Value)} {v : Value} : Entries.find? (key "active") members = none →
      Entries.find? (key "start") members = some v → Wraps v (.object members)

theorem lineOf_wraps (h : Wraps v w) : lineOf w = lineOf v := by
  cases h with
  | active ha => exact lineOf_of_active ha
  | start ha hs => exact lineOf_of_start ha hs

/-- By induction on the number of objects. -/
theorem lineOf_wrapped (h : ReflTransGen Wraps v w) : lineOf w = lineOf v := by
  induction h with
  | refl => rfl
  | tail _ hstep ih => exact (lineOf_wraps hstep).trans ih

inductive Position (n : Int) : Value → Prop
  | number : Position n (.int n)
  | line {members : List (Codes × Value)} : Entries.find? (key "active") members = none →
      Entries.find? (key "start") members = none → Entries.find? (key "line") members = some (.int n) →
        Position n (.object members)

theorem lineOf_position (h : Position n v) : lineOf v = .ok n := by
  cases h with
  | number => rfl
  | line ha hs hl =>
    rw [lineOf_of_line ha hs, hl]
    rfl

/-- A position with any number of objects around it. -/
def Cursor (n : Int) (v : Value) : Prop := ∃ u, Position n u ∧ ReflTransGen Wraps u v

theorem lineOf_cursor (h : Cursor n v) : lineOf v = .ok n := by
  obtain ⟨u, hu, hwrapped⟩ := h
  rw [lineOf_wrapped hwrapped, lineOf_position hu]

/-- Neither a whole number nor an object. -/
def isStray : Value → Bool
  | .int _ => false
  | .object _ => false
  | _ => true

theorem lineOf_stray (h : isStray v = true) : lineOf v = .error (.unsupported v.display) := by
  cases v with
  | int n | object members => cases h
  | null | bool b | float x | str s | list items => rfl

/-! ## Several of them -/

variable {selections : List Value} {lines : List Int}

theorem mapM_lineOf_cursors (h : List.Forall₂ Cursor lines selections) : selections.mapM lineOf = .ok lines :=
  mapM_eq_ok.2 (h.flip.imp fun _ _ => lineOf_cursor)

/-- The first that is astray decides. -/
theorem mapM_lineOf_stray (hcursors : ∀ u ∈ selections, isStray u = false → ∃ n, Cursor n u)
    (hfirst : selections.find? isStray = some v) : selections.mapM lineOf = .error (.unsupported v.display) := by
  obtain ⟨hstray, before, after, rfl, hbefore⟩ := List.find?_eq_some_iff_append.1 hfirst
  refine mapM_eq_error.2 ⟨before, v, after, rfl, ?_, lineOf_stray hstray⟩
  intro u hu
  obtain ⟨n, hn⟩ := hcursors u (List.mem_append_left _ hu) (by simpa using hbefore u hu)
  exact ⟨n, lineOf_cursor hn⟩

/-! ## Arguments that send them -/

/-- The address stands in the document, or beside one that has none. -/
inductive Addressed (uri : Codes) (members : List (Codes × Value)) : Prop
  | document {ms : List (Codes × Value)} : Entries.find? (key "textDocument") members = some (.object ms) →
      Entries.find? (key "uri") ms = some (.str uri) → Addressed uri members
  | beside : (∀ v, Entries.find? (key "textDocument") members = some v →
        v = .null ∨ ∃ ms, v = .object ms ∧ Entries.find? (key "uri") ms = none) →
      Entries.find? (key "uri") members = some (.str uri) → Addressed uri members

variable {uri : Codes}

theorem member_of_find? {name : String} (h : Entries.find? (key name) members = some v) : member name members = v := by
  rw [member, h]
  rfl

theorem documentAddress_object {ms : List (Codes × Value)}
    (h : Entries.find? (key "textDocument") members = some (.object ms)) :
    documentAddress members = .ok (member "uri" ms) := by
  rw [documentAddress, member_of_find? h]
  rfl

theorem documentAddress_absent (h : ∀ v, Entries.find? (key "textDocument") members = some v →
    v = .null ∨ ∃ ms, v = .object ms ∧ Entries.find? (key "uri") ms = none) :
    documentAddress members = .ok .null := by
  cases hdocument : Entries.find? (key "textDocument") members with
  | none =>
    rw [documentAddress, member, hdocument]
    rfl
  | some v =>
    rcases h v hdocument with rfl | ⟨ms, rfl, hms⟩
    · rw [documentAddress, member_of_find? hdocument]
      rfl
    · rw [documentAddress_object hdocument, member, hms]
      rfl

theorem addressOf_addressed (h : Addressed uri members) (huri : uri ≠ []) : addressOf members = .ok (.str uri) := by
  have htrue : (Value.str uri).isTrue = true := by simpa [Value.isTrue] using huri
  rw [addressOf_eq]
  cases h with
  | document hdocument hms =>
    rw [documentAddress_object hdocument, member_of_find? hms]
    show orOwn members (.str uri) = _
    unfold orOwn
    simp only [if_pos htrue]
    rfl
  | beside hdocument hown =>
    rw [documentAddress_absent hdocument]
    show (if (member "uri" members).isTrue then pure (member "uri" members) else throw .noAddress :
      Except ArgumentFault Value) = _
    rw [member_of_find? hown, if_pos htrue]
    rfl

/-- An object that names a document and selections. -/
structure Payload (uri : Codes) (selections : List Value) (members : List (Codes × Value)) : Prop where
  addressed : Addressed uri members
  named : uri ≠ []
  listed : Entries.find? (key "selections") members = some (.list selections)
  notEmpty : selections ≠ []

theorem Payload.linesOf_eq (h : Payload uri selections members) : linesOf members =
    selections.mapM lineOf >>= fun lines => orPosition members lines >>= someLine := by
  rw [Server.linesOf_eq, h.listed]
  rfl

theorem Payload.ofObject_ok (h : Payload uri selections members) (hlines : selections.mapM lineOf = .ok lines) :
    Arguments.ofObject members = .ok ⟨.str uri, lines⟩ := by
  refine ofObject_eq_ok.2 ⟨addressOf_addressed h.addressed h.named, ?_⟩
  rw [h.linesOf_eq, hlines]
  -- No position takes the place of the lines, as there is one line at least.
  cases lines with
  | nil => exact absurd (List.forall₂_nil_right_iff.1 (mapM_eq_ok.1 hlines)) h.notEmpty
  | cons n more => rfl

theorem Payload.ofObject_error (h : Payload uri selections members) {f : ArgumentFault}
    (hlines : selections.mapM lineOf = .error f) : Arguments.ofObject members = .error f := by
  have hread : linesOf members = .error f := by
    rw [h.linesOf_eq, hlines]
    rfl
  unfold Arguments.ofObject
  rw [addressOf_addressed h.addressed h.named, hread]
  rfl

/-- Arguments that start with such an object, by themselves or as the only one. -/
inductive Sends (uri : Codes) (selections : List Value) : List Value → Prop
  | list {members : List (Codes × Value)} (more : List Value) : Payload uri selections members →
      Sends uri selections (.object members :: more)
  | nested {members : List (Codes × Value)} (more : List Value) : Payload uri selections members →
      Sends uri selections [.list (.object members :: more)]

theorem Sends.exists_payload {args : List Value} (h : Sends uri selections args) :
    ∃ members, Payload uri selections members ∧ Arguments.ofList args = Arguments.ofObject members := by
  cases h with
  | list more h => exact ⟨_, h, rfl⟩
  | nested more h => exact ⟨_, h, rfl⟩

/-- Whatever the cursors are written as, they are read as their lines, and of arguments
    that send them comes the address with these lines in their order. If some selections
    are astray and the others are cursors, there are no arguments but the fault of the
    first that is astray. -/
theorem cursors_alike : (∀ n v, Cursor n v → lineOf v = .ok n) ∧
    ∀ uri selections args, Sends uri selections args →
      (∀ lines, List.Forall₂ Cursor lines selections → Arguments.ofList args = .ok ⟨.str uri, lines⟩) ∧
      ((∀ u ∈ selections, isStray u = false → ∃ n, Cursor n u) → (∃ u ∈ selections, isStray u = true) →
        ∃ v, selections.find? isStray = some v ∧ Arguments.ofList args = .error (.unsupported v.display)) := by
  refine ⟨fun n v => lineOf_cursor, fun uri selections args hsends => ?_⟩
  obtain ⟨members, hpayload, hargs⟩ := hsends.exists_payload
  rw [hargs]
  constructor
  · intro lines hcursors
    exact hpayload.ofObject_ok (mapM_lineOf_cursors hcursors)
  · intro hcursors hstray
    obtain ⟨v, hfirst⟩ := Option.isSome_iff_exists.1 (List.find?_isSome.2 hstray)
    exact ⟨v, hfirst, hpayload.ofObject_error (mapM_lineOf_stray hcursors hfirst)⟩

/-! ## A request of each kind -/

/-- Selections of a document, with another argument behind them, in a list of their own. -/
def nestedArguments (selections : List Value) : List Value :=
  [.list [.object [(key "selections", .list selections), (key "uri", .str (key "file:///b.php")),
    (key "textDocument", .object [(key "uri", .str (key "file:///a.php"))])], .null]]

theorem sends_nestedArguments {selections : List Value} (h : selections ≠ []) :
    Sends (key "file:///a.php") selections (nestedArguments selections) :=
  .nested [.null] ⟨.document rfl rfl, by decide, rfl, h⟩

/-- Line 5 as a range inside of a selection; the other members, and a line beside, do not count. -/
def wrappedCursor : Value :=
  .object [(key "line", .int 1), (key "start", .object [(key "line", .int 2)]),
    (key "active", .object [(key "end", .null), (key "start", .object [(key "line", .int 5)])])]

theorem cursor_wrappedCursor : Cursor 5 wrappedCursor :=
  ⟨_, .line rfl rfl rfl, .tail (.single (.start rfl rfl)) (.active rfl)⟩

/-- Two cursors are read as their lines; with true among them there is a fault instead. -/
theorem cursors_alike_sample : List.Forall₂ Cursor [3, 5] [.int 3, wrappedCursor] ∧
    Arguments.ofList (nestedArguments [.int 3, wrappedCursor]) = .ok ⟨.str (key "file:///a.php"), [3, 5]⟩ ∧
    Arguments.ofList (nestedArguments [.int 3, .bool true, wrappedCursor, .null]) =
      .error (.unsupported "True".toList) := by
  have hthree : Cursor 3 (.int 3) := ⟨_, .number, .refl⟩
  have hboth : List.Forall₂ Cursor [3, 5] [.int 3, wrappedCursor] := .cons hthree (.cons cursor_wrappedCursor .nil)
  obtain ⟨-, hsent⟩ := cursors_alike
  refine ⟨hboth, ?_, ?_⟩
  · exact (hsent _ _ _ (sends_nestedArguments (List.cons_ne_nil _ _))).1 _ hboth
  · have hcursors : ∀ u ∈ [.int 3, .bool true, wrappedCursor, .null], isStray u = false → ∃ n, Cursor n u := by
      simp only [List.forall_mem_cons]
      exact ⟨fun _ => ⟨3, hthree⟩, fun h => (by cases h), fun _ => ⟨5, cursor_wrappedCursor⟩, fun h => (by cases h),
        by simp⟩
    obtain ⟨v, hfirst, hfault⟩ := (hsent _ _ _ (sends_nestedArguments (List.cons_ne_nil _ _))).2 hcursors
      ⟨.bool true, by simp, rfl⟩
    obtain rfl := Option.some.inj hfirst
    exact hfault

end Accessors.Server
