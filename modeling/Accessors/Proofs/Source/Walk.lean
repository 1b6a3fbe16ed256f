/-
  Accessors.Proofs.Source.Walk — the way up through a document, by line numbers.

  Documentation and declarations are read from a line upward. Here the lines are asked for
  by their numbers, one at a time, and a number that no line has stops the walk (`lineAt`).
  None does: with every line at hand the walk comes to what is read off the lines above.
  - `DocBlock.readAt_eq`: from any line of a document, and from right below its last one;
  - `Property.search_eq`: from any cursor, wherever it stands.
-/
import Accessors.Source.Property
import Mathlib.Data.List.Basic

namespace Accessors

/-- The line of a number, or the number if it is out of the document. -/
def lineAt (lines : List Text) (i : Int) : Except Int Text :=
  if i < 0 then .error i else lines[i.toNat]?.elim (.error i) .ok

theorem lineAt_eq {lines : List Text} {i : Nat} {l : Text} (h : lines[i]? = some l) : lineAt lines i = .ok l := by
  unfold lineAt
  rw [if_neg (by omega), Int.toNat_natCast, h]
  rfl

theorem lineAt_eq_ok {lines : List Text} {k : Int} {l : Text} : lineAt lines k = .ok l ↔ 0 ≤ k ∧ lines[k.toNat]? = some l := by
  unfold lineAt
  by_cases hk : k < 0
  · rw [if_pos hk]
    constructor
    · intro h
      cases h
    · rintro ⟨hpos, -⟩
      omega
  · rw [if_neg hk]
    cases lines[k.toNat]? with
    | none =>
      constructor
      · intro h
        cases h
      · rintro ⟨-, h⟩
        cases h
    | some m =>
      show Except.ok m = Except.ok l ↔ _
      rw [Except.ok.injEq, Option.some_inj]
      exact ⟨fun h => ⟨by omega, h⟩, And.right⟩

/-- The lines above the next one, the nearest first. -/
theorem reverse_take_succ {lines : List Text} {i : Nat} {l : Text} (h : lines[i]? = some l) :
    (lines.take (i + 1)).reverse = l :: (lines.take i).reverse := by
  rw [List.take_add_one, h, Option.toList_some, List.reverse_append, List.reverse_singleton, List.singleton_append]

theorem exists_line {lines : List Text} {i : Nat} (h : i < lines.length) : ∃ l, lines[i]? = some l :=
  ⟨lines[i], List.getElem?_eq_getElem h⟩

variable (lines : List Text)

/-! ## Documentation -/

namespace DocBlock

/-- The comment whose lines from `k` on are `done`, its other ones sought among the first `k`. -/
def commentAt? (done : List Text) : (k : Nat) → Except Int (Option (List Text))
  | 0 => .ok .none
  | k + 1 => do
    let t := Text.trim (← lineAt lines k)
    if Text.startsWith opener t then .ok (some (t :: done))
    else if Text.startsWith ['*'] t then commentAt? (t :: done) k
    else .ok .none

/-- The documentation above the line `n`. -/
def readAt (n : Nat) : Except Int DocBlock :=
  if (n : Int) - 1 < 0 then .ok none
  else do
    if Text.endsWith closer (Text.trim (← lineAt lines (n - 1))) then
      match ← commentAt? lines [] n with
      | some c => .ok (ofComment c)
      | .none => .ok none
    else .ok none

variable {lines}

theorem commentAt?_eq {done : List Text} {k : Nat} (h : k ≤ lines.length) :
    commentAt? lines done k = .ok (commentFrom? done (lines.take k).reverse) := by
  induction k generalizing done with
  | zero => rfl
  | succ k ih =>
    obtain ⟨l, hl⟩ := exists_line (show k < lines.length by omega)
    rw [reverse_take_succ hl]
    unfold commentAt? commentFrom?
    rw [lineAt_eq hl]
    show (if Text.startsWith opener (Text.trim l) then _ else
      if Text.startsWith ['*'] (Text.trim l) then commentAt? lines (Text.trim l :: done) k else _) = _
    rw [ih (by omega)]
    simp only [apply_ite Except.ok]

theorem readAt_eq {n : Nat} (h : n ≤ lines.length) : readAt lines n = .ok (read (lines.take n).reverse) := by
  cases n with
  | zero => rfl
  | succ k =>
    obtain ⟨l, hl⟩ := exists_line (show k < lines.length by omega)
    have hprevious : ((k + 1 : Nat) : Int) - 1 = (k : Nat) := by omega
    unfold readAt read
    rw [hprevious, if_neg (by omega), lineAt_eq hl, commentAt?_eq h, reverse_take_succ hl]
    show (if Text.endsWith closer (Text.trim l) then
      match commentFrom? [] (l :: (lines.take k).reverse) with
      | some c => Except.ok (ofComment c)
      | .none => Except.ok none
      else Except.ok none) = _
    rw [comment?]
    by_cases hclosed : Text.endsWith closer (Text.trim l) = true
    · rw [if_pos hclosed, if_pos hclosed]
      cases commentFrom? [] (l :: (lines.take k).reverse) <;> rfl
    · rw [if_neg hclosed, if_neg hclosed]

end DocBlock

/-! ## Declarations -/

namespace Property

/-- The property that the line `i` declares. -/
def declaredAt? (i : Nat) : Except Int (Option Property) := do
  let line := Text.dropBreak (← lineAt lines i)
  match Declaration.scan? (Text.trim line) with
  | some d => do
    let doc ← DocBlock.readAt lines i
    .ok (some (ofDeclaration d doc (Text.indentation line)))
  | none => .ok none

/-- The last declaration on the first `k` lines, sought from the lowest of them upward. -/
def searchAt : (k : Nat) → Except Int (Option Found)
  | 0 => .ok none
  | k + 1 => do
    match ← declaredAt? lines k with
    | some p => .ok (some ⟨k, p⟩)
    | none => searchAt k

/-- A cursor, moved into the document; before the first line if there is none. -/
def clamped (cursor : Int) : Int := min (max cursor 0) ((lines.length : Int) - 1)

def search (cursor : Int) : Except Int (Option Found) :=
  if lines.isEmpty then .ok none else searchAt lines ((clamped lines cursor).toNat + 1)

/-- The property that a line of the document declares, below the lines above it. -/
def declaredOn? (i : Nat) : Option Property := lines[i]?.bind fun l => ofLine? (lines.take i).reverse l

variable {lines}

theorem declaredAt?_eq {i : Nat} (h : i < lines.length) : declaredAt? lines i = .ok (declaredOn? lines i) := by
  obtain ⟨l, hl⟩ := exists_line h
  unfold declaredAt? declaredOn? ofLine?
  rw [lineAt_eq hl, DocBlock.readAt_eq (by omega), hl]
  show (match Declaration.scan? (Text.trim (Text.dropBreak l)) with
    | some d => Except.ok (some
        (ofDeclaration d (DocBlock.read (lines.take i).reverse) (Text.indentation (Text.dropBreak l))))
    | none => Except.ok none) =
      Except.ok ((Declaration.scan? (Text.trim (Text.dropBreak l))).map fun d =>
        ofDeclaration d (DocBlock.read (lines.take i).reverse) (Text.indentation (Text.dropBreak l)))
  cases Declaration.scan? (Text.trim (Text.dropBreak l)) <;> rfl

theorem declaredOn?_eq {i : Nat} {l : Text} (h : lines[i]? = some l) :
    declaredOn? lines i = ofLine? (lines.take i).reverse l := by
  unfold declaredOn?
  rw [h, Option.bind_some]

theorem findAbove?_take_succ {k : Nat} (h : k < lines.length) : findAbove? (lines.take (k + 1)).reverse =
    ((declaredOn? lines k).map (Found.mk k)).or (findAbove? (lines.take k).reverse) := by
  obtain ⟨l, hl⟩ := exists_line h
  have hlength : (lines.take k).reverse.length = k := by
    rw [List.length_reverse, List.length_take]
    omega
  rw [reverse_take_succ hl, findAbove?, hlength, declaredOn?_eq hl]
  cases ofLine? (lines.take k).reverse l <;> rfl

theorem searchAt_eq {k : Nat} (h : k ≤ lines.length) :
    searchAt lines k = .ok (findAbove? (lines.take k).reverse) := by
  induction k with
  | zero => rfl
  | succ k ih =>
    rw [findAbove?_take_succ h]
    unfold searchAt
    rw [declaredAt?_eq h]
    cases hp : declaredOn? lines k with
    | some p => rfl
    | none => exact ih (by omega)

theorem clamped_lt (hne : lines ≠ []) (cursor : Int) :
    0 ≤ clamped lines cursor ∧ (clamped lines cursor).toNat < lines.length := by
  have hlength := List.length_pos_iff.2 hne
  unfold clamped
  omega

theorem linesToCursor_eq (hne : lines ≠ []) (cursor : Int) :
    linesToCursor lines.length cursor = (clamped lines cursor).toNat + 1 := by
  have hlength := List.length_pos_iff.2 hne
  unfold linesToCursor clamped
  omega

theorem search_eq (lines : List Text) (cursor : Int) : search lines cursor = .ok (find? lines cursor) := by
  cases lines with
  | nil =>
    rw [find?_nil]
    rfl
  | cons l lines =>
    have hne : l :: lines ≠ [] := List.cons_ne_nil l lines
    have hreach := (clamped_lt hne cursor).2
    unfold search find?
    rw [List.isEmpty_cons, if_neg Bool.false_ne_true, searchAt_eq (by omega), linesToCursor_eq hne]

end Property

end Accessors
