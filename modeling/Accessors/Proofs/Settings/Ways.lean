/-
  Accessors.Proofs.Settings.Ways — the ways to write a setting.

  An entry supplies a key in one of three ways (`Supplies`), and never in two
  (`supplied_cases`). What stands under a key is what the last entry supplied that supplies
  the key at all (`LastSupplied`, `find?_ofEntries`), and there is no more to the order in
  which the ways are mixed. A null that is supplied last hides what came before, and is
  then as good as nothing.
  - `ways_agree`: settings that are written in one way all through are the same in each,
    and however the ways are mixed, reading a key gives what was supplied last.
-/
import Accessors.Settings
import Mathlib.Data.List.Nodup

namespace Accessors.Settings

/-! ## What an entry supplies -/

/-- A key with the mark of the section stands for the key behind it, the section for its
    members, and any other key for itself. -/
inductive Supplies (key : Codes) (value : Value) : Codes × Value → Prop
  | plain : ¬sectionMark <+: key → (∀ members, (key, value) ≠ (sectionName, .object members)) →
      Supplies key value (key, value)
  | marked : Supplies key value (sectionMark ++ key, value)
  | member {members : Entries Codes Value} : (key, value) ∈ members →
      Supplies key value (sectionName, .object members)

section Supplies

variable {key : Codes} {value : Value}

theorem unmarked?_mark (key : Codes) : unmarked? (sectionMark ++ key) = some key := by
  rw [unmarked?, if_pos (List.isPrefixOf_iff_prefix.2 (List.prefix_append _ _)), List.drop_left]

theorem unmarked?_of_not_mark (h : ¬sectionMark <+: key) : unmarked? key = none := by
  rw [unmarked?, if_neg fun hmark => h (List.isPrefixOf_iff_prefix.1 hmark)]

theorem mark_ne_name (key : Codes) : sectionMark ++ key ≠ sectionName := by
  intro h
  have hlength := congrArg List.length h
  simp [sectionMark] at hlength

theorem supplied_mark (key : Codes) (value : Value) : supplied (sectionMark ++ key) value = [(key, value)] := by
  unfold supplied
  rw [if_neg (mark_ne_name key), unmarked?_mark]

theorem supplied_section (members : Entries Codes Value) : supplied sectionName (.object members) = members := by
  rw [supplied, if_pos rfl]

theorem supplied_plain (hmark : ¬sectionMark <+: key)
    (hsection : ∀ members, (key, value) ≠ (sectionName, .object members)) : supplied key value = [(key, value)] := by
  unfold supplied
  by_cases hkey : key = sectionName
  · rw [if_pos hkey]
    cases value with
    | object members => exact absurd (congrArg (·, Value.object members) hkey) (hsection members)
    | null | bool b | int n | float x | str t | list items => rfl
  · rw [if_neg hkey, unmarked?_of_not_mark hmark]

theorem supplied_cases (e : Codes × Value) :
    (∃ members, e = (sectionName, .object members)) ∨ (∃ key value, e = (sectionMark ++ key, value)) ∨
      (¬sectionMark <+: e.1 ∧ ∀ members, e ≠ (sectionName, .object members)) := by
  by_cases hsection : ∃ members, e = (sectionName, .object members)
  · exact .inl hsection
  by_cases hmark : sectionMark <+: e.1
  · obtain ⟨key, hkey⟩ := hmark
    exact .inr (.inl ⟨key, e.2, by rw [hkey]⟩)
  · exact .inr (.inr ⟨hmark, not_exists.1 hsection⟩)

theorem supplies_iff {e : Codes × Value} : Supplies key value e ↔ (key, value) ∈ supplied e.1 e.2 := by
  constructor
  · rintro (⟨hmark, hsection⟩ | _ | hm)
    · rw [supplied_plain hmark hsection]
      exact List.mem_singleton_self _
    · rw [supplied_mark]
      exact List.mem_singleton_self _
    · rwa [supplied_section]
  · intro hm
    obtain ⟨members, rfl⟩ | ⟨k, v, rfl⟩ | ⟨hmark, hsection⟩ := supplied_cases e
    · rw [supplied_section] at hm
      exact .member hm
    · rw [supplied_mark, List.mem_singleton] at hm
      obtain ⟨rfl, rfl⟩ := Prod.mk.inj hm
      exact .marked
    · rw [supplied_plain hmark hsection, List.mem_singleton] at hm
      obtain rfl : (key, value) = e := hm
      exact .plain hmark hsection

end Supplies

/-! ## The last entry to supply a key -/

/-- The value of the last entry that supplies a key, if there is one. -/
inductive LastSupplied (key : Codes) (es : Entries Codes Value) : Option Value → Prop
  | never : (∀ e ∈ es, ∀ value, ¬Supplies key value e) → LastSupplied key es none
  | last {before after : Entries Codes Value} {e : Codes × Value} {value : Value} : es = before ++ e :: after →
      Supplies key value e → (∀ later ∈ after, ∀ other, ¬Supplies key other later) →
      LastSupplied key es (some value)

/-- No section has two members of one name. -/
def Distinct (es : Entries Codes Value) : Prop :=
  ∀ members, (sectionName, .object members) ∈ es → (Entries.keys members).Nodup

section Last

variable {key : Codes} {es : Entries Codes Value}

theorem lastSupplied_total (key : Codes) (es : Entries Codes Value) : ∃ said, LastSupplied key es said := by
  induction es with
  | nil => exact ⟨none, .never fun e he => absurd he List.not_mem_nil⟩
  | cons e es ih =>
    obtain ⟨said, hsaid⟩ := ih
    cases hsaid with
    | never hnever =>
      by_cases he : ∃ value, Supplies key value e
      · obtain ⟨value, hvalue⟩ := he
        exact ⟨some value, .last (List.nil_append _).symm hvalue hnever⟩
      · exact ⟨none, .never (List.forall_mem_cons.2 ⟨not_exists.1 he, hnever⟩)⟩
    | @last before after e' value hes hvalue hafter =>
      have hsplit : e :: es = (e :: before) ++ e' :: after := congrArg (e :: ·) hes
      exact ⟨some value, .last hsplit hvalue hafter⟩

theorem Distinct.supplied (h : Distinct es) {e : Codes × Value} (he : e ∈ es) :
    (Entries.keys (supplied e.1 e.2)).Nodup := by
  obtain ⟨members, rfl⟩ | ⟨k, v, rfl⟩ | ⟨hmark, hsection⟩ := supplied_cases e
  · rw [supplied_section]
    exact h members he
  · rw [supplied_mark]
    exact List.nodup_singleton _
  · rw [supplied_plain hmark hsection]
    exact List.nodup_singleton _

theorem entries_ofEntries (es : Entries Codes Value) :
    (ofEntries es).entries = Entries.assignAll [] (es.flatMap fun e => supplied e.1 e.2) := by
  show es.foldl (fun flat e => Entries.assignAll flat (supplied e.1 e.2)) [] = _
  unfold Entries.assignAll
  rw [List.foldl_flatMap]

theorem find?_never (h : ∀ e ∈ es, ∀ value, ¬Supplies key value e) :
    Entries.find? key (es.flatMap fun e => supplied e.1 e.2).reverse = none := by
  cases hfind : Entries.find? key (es.flatMap fun e => supplied e.1 e.2).reverse with
  | none => rfl
  | some value =>
    obtain ⟨e, he, hvalue⟩ := List.mem_flatMap.1 (List.mem_reverse.1 (Entries.mem_of_find? hfind))
    exact absurd (supplies_iff.2 hvalue) (h e he value)

theorem find?_ofEntries (hes : Distinct es) {said : Option Value} (h : LastSupplied key es said) :
    Entries.find? key (ofEntries es).entries = said := by
  rw [entries_ofEntries, Entries.find?_assignAll]
  cases h with
  | never hnever => rw [find?_never hnever]; rfl
  | @last before after e value hsplit hvalue hafter =>
    have he : e ∈ es := by simp [hsplit]
    have hnodup : (Entries.keys (supplied e.1 e.2).reverse).Nodup := by
      rw [Entries.keys, List.map_reverse, List.nodup_reverse]
      exact hes.supplied he
    have hat : Entries.find? key (supplied e.1 e.2).reverse = some value :=
      Entries.find?_of_mem hnodup (List.mem_reverse.2 (supplies_iff.1 hvalue))
    rw [hsplit, List.flatMap_append, List.flatMap_cons, List.reverse_append, List.reverse_append,
      Entries.find?_append, Entries.find?_append, find?_never hafter, hat]
    rfl

end Last

/-! ## One way or another -/

theorem entries_of_supplied {es members : Entries Codes Value} (hm : (Entries.keys members).Nodup)
    (h : (es.flatMap fun e => supplied e.1 e.2) = members) : (ofEntries es).entries = members := by
  rw [entries_ofEntries, h, Entries.assignAll_new (by simpa using hm), List.nil_append]

theorem flatMap_supplied_plain {es : Entries Codes Value}
    (h : ∀ e ∈ es, ¬sectionMark <+: e.1 ∧ ∀ members, e ≠ (sectionName, .object members)) :
    (es.flatMap fun e => supplied e.1 e.2) = es := by
  have heach : es.map (fun e => supplied e.1 e.2) = es.map fun e => [e] :=
    List.map_congr_left fun e he => supplied_plain (h e he).1 (h e he).2
  rw [List.flatMap_def, heach, ← List.flatMap_def]
  exact List.flatMap_singleton' es

/-- Members of the section, the same keys with the mark before each, and plain keys, where
    these could not be taken for anything else, are the same settings. And if the ways are
    mixed, a key comes to what the last entry gives that supplies it, or to what to fall back
    on, if there is no such entry or if that gives null. -/
theorem ways_agree (members es : Entries Codes Value) (hm : (Entries.keys members).Nodup) (hes : Distinct es) :
    (ofEntries [(sectionName, .object members)]).entries = members ∧
    (ofEntries (members.map fun m => (sectionMark ++ m.1, m.2))).entries = members ∧
    ((∀ m ∈ members, ¬sectionMark <+: m.1 ∧ ∀ inner, m ≠ (sectionName, .object inner)) →
      (ofEntries members).entries = members) ∧
    ∀ key, (∃ said, LastSupplied key es said) ∧ ∀ said given, LastSupplied key es said →
      (ofEntries es).get key given =
        match said with
        | none => if given.isNull then (Entries.find? key documented).getD .null else given
        | some value =>
          if value.isNull then if given.isNull then (Entries.find? key documented).getD .null else given
          else value := by
  refine ⟨?_, ?_, ?_, ?_⟩
  · refine entries_of_supplied hm ?_
    rw [List.flatMap_singleton, supplied_section]
  · refine entries_of_supplied hm ?_
    simp only [List.flatMap_map, supplied_mark]
    exact List.flatMap_singleton' members
  · exact fun hplain => entries_of_supplied hm (flatMap_supplied_plain hplain)
  · intro key
    refine ⟨lastSupplied_total key es, fun said given hsaid => ?_⟩
    rw [get, written?, find?_ofEntries hes hsaid]
    cases said with
    | none => rfl
    | some value => cases hnull : value.isNull <;> simp [hnull, fallback, Option.filter]

/-- A null in the section hides what the key with the mark gave before it, but not what a
    plain key gives behind it. -/
theorem ways_agree_null :
    let hidden : Entries Codes Value :=
      [(sectionMark ++ redirectKey, .bool false), (sectionName, .object [(redirectKey, .null)])]
    Distinct hidden ∧ (ofEntries hidden).get redirectKey .null = .bool true ∧
      (ofEntries (hidden ++ [(redirectKey, .int 7)])).get redirectKey .null = .int 7 := by
  intro hidden
  have hnodup : (Entries.keys [(redirectKey, Value.null)]).Nodup := List.nodup_singleton _
  have hdistinct : ∀ more, Distinct more → Distinct (hidden ++ more) := by
    intro more hmore members hmem
    simp only [hidden, List.cons_append, List.nil_append, List.mem_cons, Prod.mk.injEq, Value.object.injEq] at hmem
    rcases hmem with ⟨hname, -⟩ | ⟨-, rfl⟩ | hmem
    · exact absurd hname.symm (mark_ne_name redirectKey)
    · exact hnodup
    · exact hmore members hmem
  have hplain : ¬sectionMark <+: redirectKey := by decide
  have hsection : ∀ members, (redirectKey, Value.int 7) ≠ (sectionName, .object members) := by simp
  have hhidden : Distinct hidden := hdistinct [] fun members hmem => absurd hmem List.not_mem_nil
  have hlater : Distinct (hidden ++ [(redirectKey, .int 7)]) :=
    hdistinct _ fun members hmem => absurd (List.mem_singleton.1 hmem).symm (hsection members)
  have hnone : ∀ later ∈ ([] : Entries Codes Value), ∀ other, ¬Supplies redirectKey other later :=
    fun later hmem => absurd hmem List.not_mem_nil
  obtain ⟨-, -, -, hget⟩ := ways_agree [(redirectKey, .null)] hidden hnodup hhidden
  obtain ⟨-, -, -, hgetLater⟩ := ways_agree [(redirectKey, .null)] _ hnodup hlater
  refine ⟨hhidden, ?_, ?_⟩
  · have hsplit : hidden = [(sectionMark ++ redirectKey, .bool false)] ++
        (sectionName, .object [(redirectKey, .null)]) :: [] := rfl
    exact (hget redirectKey).2 (some .null) .null (.last hsplit (.member (List.mem_singleton_self _)) hnone)
  · have hsplit : hidden ++ [(redirectKey, .int 7)] = hidden ++ (redirectKey, .int 7) :: [] := rfl
    exact (hgetLater redirectKey).2 (some (.int 7)) .null (.last hsplit (.plain hplain hsection) hnone)

end Accessors.Settings
