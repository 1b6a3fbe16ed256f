/-
  Accessors.Proofs.Server.Arguments — arguments that no message was thought of for.

  Arguments that cannot be read are answered by a message, two kinds apart: a document
  that is no object, and a line that is infinite (`unforeseen?`). Reading goes step by
  step and ends at the first fault (`mapM_eq_error`), so what escapes a step escapes the
  first of its parts that fails (`escapes_bind`, `escapes_mapM`).
  - `escapes_lineOf`: a selection escapes if it leads to an infinite number;
  - `escapes_ofObject`: an object escapes by its document, or else by the first of its
    lines that is not read.
-/
import Accessors.Server.Session
import Mathlib.Data.List.Forall2

namespace Accessors.Server

/-! ## One after the other -/

section Each

variable {ε α β : Type} {e : ε}

theorem bind_eq_ok {x : Except ε α} {f : α → Except ε β} {b : β} :
    (x >>= f) = .ok b ↔ ∃ a, x = .ok a ∧ f a = .ok b := by
  cases x with
  | ok a => simp [Bind.bind, Except.bind]
  | error e => simp [Bind.bind, Except.bind]

theorem bind_eq_error {x : Except ε α} {f : α → Except ε β} :
    (x >>= f) = .error e ↔ x = .error e ∨ ∃ a, x = .ok a ∧ f a = .error e := by
  cases x with
  | ok a => simp [Bind.bind, Except.bind]
  | error e => simp [Bind.bind, Except.bind]

variable {f : α → Except ε β} {as : List α} {bs : List β}

theorem mapM_eq_ok : as.mapM f = .ok bs ↔ List.Forall₂ (fun a b => f a = .ok b) as bs := by
  induction as generalizing bs with
  | nil => simp [pure, Except.pure, eq_comm]
  | cons a as ih =>
    rw [List.mapM_cons, List.forall₂_cons_left_iff, bind_eq_ok]
    simp only [bind_eq_ok, ih]
    constructor
    · rintro ⟨b, hb, cs, hcs, hlist⟩
      exact ⟨b, cs, hb, hcs, (Except.ok.inj hlist).symm⟩
    · rintro ⟨b, cs, hb, hcs, rfl⟩
      exact ⟨b, hb, cs, hcs, rfl⟩

/-- The first that is not read decides. -/
theorem mapM_eq_error : as.mapM f = .error e ↔
    ∃ before a after, as = before ++ a :: after ∧ (∀ b ∈ before, ∃ c, f b = .ok c) ∧ f a = .error e := by
  induction as with
  | nil =>
    constructor
    · intro h
      cases h
    · rintro ⟨before, a, after, h, -⟩
      simp at h
  | cons a as ih =>
    have hrest : ∀ c : β, (as.mapM f >>= fun cs => pure (c :: cs)) = .error e ↔ as.mapM f = .error e := by
      intro c
      rw [bind_eq_error]
      constructor
      · rintro (h | ⟨cs, -, h⟩)
        · exact h
        · cases h
      · exact .inl
    rw [List.mapM_cons, bind_eq_error]
    simp only [hrest, ih]
    constructor
    · rintro (h | ⟨c, hc, before, b, after, rfl, hbefore, hb⟩)
      · exact ⟨[], a, as, rfl, by simp, h⟩
      · exact ⟨a :: before, b, after, rfl, List.forall_mem_cons.2 ⟨⟨c, hc⟩, hbefore⟩, hb⟩
    · rintro ⟨before, b, after, hcut, hbefore, hb⟩
      cases before with
      | nil =>
        obtain ⟨rfl, rfl⟩ := List.cons.inj hcut
        exact .inl hb
      | cons d before =>
        obtain ⟨rfl, rfl⟩ := List.cons.inj hcut
        obtain ⟨⟨c, hc⟩, hbefore⟩ := List.forall_mem_cons.1 hbefore
        exact .inr ⟨c, hc, before, b, after, rfl, hbefore, hb⟩

end Each

/-! ## What escapes -/

/-- The fault of a reading, if it is one that is not foreseen. -/
def escape? {α : Type} : Except ArgumentFault α → Option Fault
  | .ok _ => none
  | .error f => unforeseen? f

section Escape

variable {α β : Type} {fault : Fault}

theorem escape?_pure (a : α) : escape? (pure a) = none := rfl

theorem escape?_eq_some {x : Except ArgumentFault α} :
    escape? x = some fault ↔ ∃ f, x = .error f ∧ unforeseen? f = some fault := by
  cases x with
  | ok a => simp [escape?]
  | error f => simp [escape?]

theorem escapes_bind (x : Except ArgumentFault α) (f : α → Except ArgumentFault β) :
    escape? (x >>= f) = some fault ↔ escape? x = some fault ∨ ∃ a, x = .ok a ∧ escape? (f a) = some fault := by
  cases x with
  | ok a => simp [Bind.bind, Except.bind, escape?]
  | error e => simp [Bind.bind, Except.bind, escape?]

theorem escapes_mapM {f : α → Except ArgumentFault β} {as : List α} : escape? (as.mapM f) = some fault ↔
    ∃ before a after, as = before ++ a :: after ∧ (∀ b ∈ before, ∃ c, f b = .ok c) ∧ escape? (f a) = some fault := by
  simp only [escape?_eq_some, mapM_eq_error]
  constructor
  · rintro ⟨e, ⟨before, a, after, hcut, hbefore, ha⟩, he⟩
    exact ⟨before, a, after, hcut, hbefore, e, ha, he⟩
  · rintro ⟨before, a, after, hcut, hbefore, e, ha, he⟩
    exact ⟨e, ⟨before, a, after, hcut, hbefore, ha⟩, he⟩

end Escape

/-! ## Lines -/

/-- To be read as a line, a value is opened, member by member, down to the one that is
    read as a number. -/
inductive LeadsTo : Value → Value → Prop
  | active {members : List (Codes × Value)} {v w : Value} : Entries.find? (key "active") members = some v →
      LeadsTo v w → LeadsTo (.object members) w
  | start {members : List (Codes × Value)} {v w : Value} : Entries.find? (key "active") members = none →
      Entries.find? (key "start") members = some v → LeadsTo v w → LeadsTo (.object members) w
  | line {members : List (Codes × Value)} {w : Value} : Entries.find? (key "active") members = none →
      Entries.find? (key "start") members = none → Entries.find? (key "line") members = some w →
        LeadsTo (.object members) w

theorem find?_memberLines (name : Codes) (members : List (Codes × Value)) :
    Entries.find? name (memberLines members) = (Entries.find? name members).map lineOf := by
  induction members with
  | nil => rfl
  | cons m members ih =>
    obtain ⟨k, v⟩ := m
    rw [memberLines, Entries.find?, Entries.find?, ih]
    split <;> rfl

section Object

variable {members : List (Codes × Value)} {v w : Value}

theorem lineOf_of_active (ha : Entries.find? (key "active") members = some v) : lineOf (.object members) = lineOf v := by
  rw [lineOf, lineOfObject, find?_memberLines, ha]
  rfl

theorem lineOf_of_start (ha : Entries.find? (key "active") members = none)
    (hs : Entries.find? (key "start") members = some v) : lineOf (.object members) = lineOf v := by
  rw [lineOf, lineOfObject, find?_memberLines, find?_memberLines, ha, hs]
  rfl

theorem lineOf_of_line (ha : Entries.find? (key "active") members = none)
    (hs : Entries.find? (key "start") members = none) : lineOf (.object members) =
      (Entries.find? (key "line") members).elim (.error .noLine) wholeNumber := by
  rw [lineOf, lineOfObject, find?_memberLines, find?_memberLines, ha, hs]
  cases Entries.find? (key "line") members <;> rfl

theorem leadsTo_of_active (ha : Entries.find? (key "active") members = some v) :
    LeadsTo (.object members) w ↔ LeadsTo v w := by
  refine ⟨fun h => ?_, .active ha⟩
  cases h with
  | active ha' h =>
    obtain rfl := Option.some.inj (ha.symm.trans ha')
    exact h
  | start ha' | line ha' => cases ha.symm.trans ha'

theorem leadsTo_of_start (ha : Entries.find? (key "active") members = none)
    (hs : Entries.find? (key "start") members = some v) : LeadsTo (.object members) w ↔ LeadsTo v w := by
  refine ⟨fun h => ?_, .start ha hs⟩
  cases h with
  | active ha' => cases ha.symm.trans ha'
  | start _ hs' h =>
    obtain rfl := Option.some.inj (hs.symm.trans hs')
    exact h
  | line _ hs' => cases hs.symm.trans hs'

theorem leadsTo_of_line (ha : Entries.find? (key "active") members = none)
    (hs : Entries.find? (key "start") members = none) :
    LeadsTo (.object members) w ↔ Entries.find? (key "line") members = some w := by
  refine ⟨fun h => ?_, .line ha hs⟩
  cases h with
  | active ha' => cases ha.symm.trans ha'
  | start _ hs' => cases hs.symm.trans hs'
  | line _ _ h => exact h

end Object

theorem sizeOf_find?_lt {name : Codes} {members : List (Codes × Value)} {v : Value}
    (h : Entries.find? name members = some v) : sizeOf v < sizeOf (Value.object members) := by
  rw [Value.object.sizeOf_spec]
  induction members with
  | nil => cases h
  | cons m members ih =>
    obtain ⟨k, u⟩ := m
    simp only [List.cons.sizeOf_spec, Prod.mk.sizeOf_spec]
    rw [Entries.find?] at h
    split at h
    · have hu : u = v := Option.some.inj h
      rw [hu]
      omega
    · have := ih h
      omega

variable {fault : Fault}

theorem escapes_wholeNumber {v : Value} : escape? (wholeNumber v) = some fault ↔
    fault = .infiniteNumber ∧ ∃ negative, v = .float (.infinite negative) := by
  cases v with
  | float x => cases x <;> simp [wholeNumber, Binary64.truncated?, escape?, unforeseen?, eq_comm]
  | str s =>
    have hforeseen : escape? (wholeNumber (.str s)) = none := by
      show escape? ((IntText.read s).mapError .number) = none
      cases IntText.read s <;> rfl
    simp [hforeseen]
  | null | bool b | int n | list items | object members => simp [wholeNumber, escape?, unforeseen?]

/-- By induction on the size of the value: what an object leads to is smaller. -/
theorem escapes_lineOf {v : Value} : escape? (lineOf v) = some fault ↔
    fault = .infiniteNumber ∧ ∃ negative, LeadsTo v (.float (.infinite negative)) := by
  induction hn : sizeOf v using Nat.strongRecOn generalizing v with
  | _ n ih =>
    subst hn
    cases v with
    | object members =>
      cases ha : Entries.find? (key "active") members with
      | some v =>
        simp only [lineOf_of_active ha, leadsTo_of_active ha]
        exact ih _ (sizeOf_find?_lt ha) rfl
      | none =>
        cases hs : Entries.find? (key "start") members with
        | some v =>
          simp only [lineOf_of_start ha hs, leadsTo_of_start ha hs]
          exact ih _ (sizeOf_find?_lt hs) rfl
        | none =>
          simp only [lineOf_of_line ha hs, leadsTo_of_line ha hs]
          cases Entries.find? (key "line") members with
          | some v => simp [escapes_wholeNumber]
          | none => simp [escape?, unforeseen?]
    | null | bool b | int n | float x | str s | list items =>
      constructor
      · intro h
        simp [lineOf, escape?, unforeseen?] at h
      · rintro ⟨-, negative, h⟩
        cases h

/-! ## Arguments -/

/-- The first line that is not read is an infinite one. -/
inductive EndlessLine (members : List (Codes × Value)) : Prop
  | selection {before after : List Value} {v : Value} {negative : Bool} :
      selectionsOf ((Entries.find? (key "selections") members).getD (.list [])) = .ok (before ++ v :: after) →
        (∀ u ∈ before, ∃ n, lineOf u = .ok n) → LeadsTo v (.float (.infinite negative)) → EndlessLine members
  | position {v : Value} {negative : Bool} :
      selectionsOf ((Entries.find? (key "selections") members).getD (.list [])) = .ok [] →
        Entries.find? (key "position") members = some v → LeadsTo v (.float (.infinite negative)) →
          EndlessLine members

theorem escapes_selectionsOf (v : Value) : escape? (selectionsOf v) = none := by cases v <;> rfl

/-- The lines that were read, or else the one of the position. -/
def orPosition (members : List (Codes × Value)) : List Int → Except ArgumentFault (List Int)
  | [] =>
    match Entries.find? (key "position") members with
    | some position => lineOf position >>= fun n => pure [n]
    | none => pure []
  | n :: more => pure (n :: more)

def someLine (lines : List Int) : Except ArgumentFault (List Int) :=
  if lines.isEmpty then throw .noSelections else pure lines

theorem linesOf_eq (members : List (Codes × Value)) : linesOf members =
    selectionsOf ((Entries.find? (key "selections") members).getD (.list [])) >>= fun selections =>
      selections.mapM lineOf >>= fun lines => orPosition members lines >>= someLine := by
  unfold linesOf
  congr 1
  funext selections
  congr 1
  funext lines
  unfold orPosition
  cases lines with
  | nil =>
    cases Entries.find? (key "position") members with
    | some v =>
      dsimp only
      cases lineOf v <;> rfl
    | none => rfl
  | cons n more => cases Entries.find? (key "position") members <;> rfl

theorem escapes_orPosition {members : List (Codes × Value)} {lines : List Int} :
    escape? (orPosition members lines) = some fault ↔
      lines = [] ∧ ∃ v, Entries.find? (key "position") members = some v ∧ escape? (lineOf v) = some fault := by
  unfold orPosition
  cases lines with
  | nil =>
    cases Entries.find? (key "position") members with
    | some v =>
      dsimp only
      rw [escapes_bind]
      simp [escape?_pure]
    | none => simp [escape?_pure]
  | cons n more => simp [escape?_pure]

theorem escapes_linesOf {members : List (Codes × Value)} :
    escape? (linesOf members) = some fault ↔ fault = .infiniteNumber ∧ EndlessLine members := by
  have hsome : ∀ lines : List Int, escape? (someLine lines) = none := by
    intro lines
    unfold someLine
    split <;> rfl
  rw [linesOf_eq]
  simp only [escapes_bind, escapes_mapM, escapes_orPosition, escapes_lineOf, escapes_selectionsOf, hsome]
  constructor
  · rintro (h | ⟨selections, hselections, ⟨before, v, after, rfl, hbefore, hf, negative, hv⟩ |
      ⟨lines, hlines, ⟨rfl, v, hposition, hf, negative, hv⟩ | ⟨_, _, h⟩⟩⟩)
    · cases h
    · exact ⟨hf, .selection hselections hbefore hv⟩
    · obtain rfl := List.forall₂_nil_right_iff.1 (mapM_eq_ok.1 hlines)
      exact ⟨hf, .position hselections hposition hv⟩
    · cases h
  · rintro ⟨hf, hendless⟩
    cases hendless with
    | selection hselections hbefore hv => exact .inr ⟨_, hselections, .inl ⟨_, _, _, rfl, hbefore, hf, _, hv⟩⟩
    | position hselections hposition hv =>
      exact .inr ⟨_, hselections, .inr ⟨[], rfl, .inl ⟨rfl, _, hposition, hf, _, hv⟩⟩⟩

/-- The address that the document has. -/
def documentAddress (members : List (Codes × Value)) : Except ArgumentFault Value :=
  match member "textDocument" members with
  | .object ms => pure (member "uri" ms)
  | v => if v.isTrue then throw .noMembers else pure .null

/-- The address of the document, or else the one beside it. -/
def orOwn (members : List (Codes × Value)) (document : Value) : Except ArgumentFault Value :=
  let address := if document.isTrue then document else member "uri" members
  if address.isTrue then pure address else throw .noAddress

theorem addressOf_eq (members : List (Codes × Value)) :
    addressOf members = documentAddress members >>= orOwn members := by
  unfold addressOf documentAddress
  cases member "textDocument" members with
  | object ms => rfl
  | null | bool b | int n | float x | str s | list items =>
    dsimp only
    split <;> rfl

/-- The document is given, but by something that has no members. -/
def Memberless (members : List (Codes × Value)) : Prop :=
  (member "textDocument" members).isTrue = true ∧ ∀ ms, member "textDocument" members ≠ .object ms

theorem escapes_addressOf {members : List (Codes × Value)} :
    escape? (addressOf members) = some fault ↔ fault = .noMembers ∧ Memberless members := by
  have hown : ∀ document : Value, escape? (orOwn members document) = none := by
    intro document
    unfold orOwn
    dsimp only
    generalize (if document.isTrue = true then document else member "uri" members) = address
    split <;> rfl
  rw [addressOf_eq, escapes_bind]
  simp only [hown]
  unfold documentAddress Memberless
  cases member "textDocument" members with
  | object ms => simp [escape?_pure]
  | null | bool b | int n | float x | str s | list items =>
    dsimp only
    split <;> simp [escape?, unforeseen?, pure, Except.pure, throw, throwThe, MonadExceptOf.throw, eq_comm, *]

theorem ofObject_eq_ok {members : List (Codes × Value)} {address : Value} {lines : List Int} :
    Arguments.ofObject members = .ok ⟨address, lines⟩ ↔ addressOf members = .ok address ∧ linesOf members = .ok lines := by
  unfold Arguments.ofObject
  simp only [bind_eq_ok]
  constructor
  · rintro ⟨a, ha, ls, hls, hread⟩
    obtain ⟨rfl, rfl⟩ := Arguments.mk.inj (Except.ok.inj hread)
    exact ⟨ha, hls⟩
  · rintro ⟨ha, hls⟩
    exact ⟨address, ha, lines, hls, rfl⟩

theorem escapes_ofObject {members : List (Codes × Value)} : escape? (Arguments.ofObject members) = some fault ↔
    (fault = .noMembers ∧ Memberless members) ∨
      fault = .infiniteNumber ∧ EndlessLine members ∧ ∃ address, addressOf members = .ok address := by
  unfold Arguments.ofObject
  simp only [escapes_bind, escapes_addressOf, escapes_linesOf, escape?_pure]
  constructor
  · rintro (h | ⟨address, haddress, ⟨hf, hendless⟩ | ⟨_, _, h⟩⟩)
    · exact .inl h
    · exact .inr ⟨hf, hendless, address, haddress⟩
    · cases h
  · rintro (h | ⟨hf, hendless, address, haddress⟩)
    · exact .inl h
    · exact .inr ⟨address, haddress, .inl ⟨hf, hendless⟩⟩

/-- The members of the object that the arguments start with. -/
def payload? (args : List Value) : Option (List (Codes × Value)) :=
  match (match args with
    | [.list inner] => inner
    | args => args) with
  | .object members :: _ => some members
  | _ => none

theorem ofList_eq (args : List Value) :
    Arguments.ofList args = (payload? args).elim (.error .noObject) Arguments.ofObject := by
  have hhead : ∀ values : List Value, (match values with
      | .object members :: _ => Arguments.ofObject members
      | _ => .error .noObject) = (match values with
        | .object members :: _ => some members
        | _ => none : Option (List (Codes × Value))).elim (.error .noObject) Arguments.ofObject := by
    intro values
    cases values with
    | nil => rfl
    | cons v more => cases v <;> rfl
  exact hhead _

end Accessors.Server
